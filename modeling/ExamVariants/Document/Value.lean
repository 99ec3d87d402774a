import ExamVariants.Decimal.Shortest

namespace ExamVariants.Document

inductive Number where
  | integer (value : Int)
  | real (value : Float)
  deriving Repr, Inhabited

inductive Value where
  | null
  | bool (value : Bool)
  | number (value : Number)
  | text (value : String)
  | list (items : List Value)
  | mapping (entries : List (String × Value))
  deriving Repr, Inhabited

/-- Numbers are positional from `0.00001` up to, and without, `1e+16`. -/
def numberLayout : Decimal.Layout := ⟨-5, 16⟩

namespace Number

def text : Number → String
  | integer i => toString i
  | real x => numberLayout.text x

def nat? : Number → Option Nat
  | integer (.ofNat n) => some n
  | _ => none

/-- The least and the greatest integer that are kept as integers. -/
def minInteger : Int := -0x8000000000000000

def maxInteger : Int := 0xFFFFFFFFFFFFFFFF

end Number

namespace Value

/-- Binds a key in a sorted mapping; the last binding of a key wins. -/
def insertEntry (key : String) (v : Value) : List (String × Value) → List (String × Value)
  | [] => [(key, v)]
  | (k, w) :: rest =>
    if key = k then (key, v) :: rest
    else if key < k then (key, v) :: (k, w) :: rest
    else (k, w) :: insertEntry key v rest

/-- The mapping of a list of bindings in the order written. -/
def ofEntries (entries : List (String × Value)) : Value :=
  mapping (entries.foldl (fun sorted (k, v) => insertEntry k v sorted) [])

def find? (key : String) (entries : List (String × Value)) : Option Value :=
  entries.lookup key

def isNull : Value → Bool
  | null => true
  | _ => false

/-- Texts, numbers and truth values as text. -/
def scalarText? : Value → Option String
  | text s => some s
  | number n => some n.text
  | bool true => some "true"
  | bool false => some "false"
  | _ => none

/-- A count below `2 ^ 32`. -/
def count? : Value → Option Nat
  | number n => n.nat?.filter (· < 0x100000000)
  | _ => none

theorem count?_lt {v : Value} {n : Nat} (h : v.count? = some n) : n < 0x100000000 := by
  cases v <;> simp_all [count?, Option.filter_eq_some_iff]

end Value

end ExamVariants.Document
