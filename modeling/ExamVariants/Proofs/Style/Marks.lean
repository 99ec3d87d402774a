import ExamVariants.Segment

namespace ExamVariants

inductive Item (Mark : Type) where
  | opened (mark : Mark)
  | closed (mark : Mark)
  | alone (mark : Mark)
  | char (c : Char)
  deriving DecidableEq, Repr

namespace Item

variable {Mark : Type}

def char? : Item Mark → Option Char
  | char c => some c
  | _ => none

def text (is : List (Item Mark)) : String := String.ofList (is.filterMap char?)

@[simp] theorem text_nil : text ([] : List (Item Mark)) = "" := rfl

@[simp] theorem text_opened (m : Mark) (is : List (Item Mark)) : text (opened m :: is) = text is :=
  rfl

@[simp] theorem text_closed (m : Mark) (is : List (Item Mark)) : text (closed m :: is) = text is :=
  rfl

@[simp] theorem text_alone (m : Mark) (is : List (Item Mark)) : text (alone m :: is) = text is :=
  rfl

@[simp] theorem text_append (is is' : List (Item Mark)) : text (is ++ is') = text is ++ text is' := by
  simp [text]

@[simp] theorem text_chars (s : String) : text (s.toList.map (char : Char → Item Mark)) = s := by
  simp [text, List.filterMap_map, Function.comp_def, char?]

/-- Every mark that is opened is closed behind what it marks. -/
inductive Nested : List (Item Mark) → Prop
  | nil : Nested []
  | alone (m : Mark) {rest : List (Item Mark)} : Nested rest → Nested (.alone m :: rest)
  | char (c : Char) {rest : List (Item Mark)} : Nested rest → Nested (.char c :: rest)
  | within (m : Mark) {inner rest : List (Item Mark)} : Nested inner → Nested rest →
      Nested (.opened m :: (inner ++ .closed m :: rest))

theorem Nested.append {is is' : List (Item Mark)} (h : Nested is) (h' : Nested is') :
    Nested (is ++ is') := by
  induction h with
  | nil => exact h'
  | alone m _ ih => exact ih.alone m
  | char c _ ih => exact ih.char c
  | within m hinner _ _ ih =>
    have hwithin := hinner.within m ih
    rwa [List.cons_append, List.append_assoc, List.cons_append]

theorem nested_chars (cs : List Char) : Nested (cs.map (char : Char → Item Mark)) := by
  induction cs with
  | nil => exact .nil
  | cons c cs ih => exact ih.char c

theorem nested_flatMap {α : Type} {f : α → List (Item Mark)} {xs : List α}
    (h : ∀ x ∈ xs, Nested (f x)) : Nested (xs.flatMap f) := by
  induction xs with
  | nil => exact .nil
  | cons x xs ih =>
    rw [List.flatMap_cons]
    exact (h x List.mem_cons_self).append (ih fun y hy => h y (List.mem_cons_of_mem x hy))

theorem text_flatMap {α : Type} {f : α → List (Item Mark)} {g : α → String} {xs : List α}
    (h : ∀ x ∈ xs, text (f x) = g x) : text (xs.flatMap f) = String.join (xs.map g) := by
  induction xs with
  | nil => rfl
  | cons x xs ih =>
    rw [List.flatMap_cons, text_append, h x List.mem_cons_self, List.map_cons, String.join_cons,
      ih fun y hy => h y (List.mem_cons_of_mem x hy)]

/-- The marks around the items, the first outermost. -/
def around (ms : List Mark) (is : List (Item Mark)) : List (Item Mark) :=
  ms.foldr (fun m is => opened m :: (is ++ [closed m])) is

/-- Each style puts its marks around what the styles before it gave. -/
def styled (marks : Style → List Mark) (ss : List Style) (is : List (Item Mark)) :
    List (Item Mark) :=
  ss.foldl (fun is s => around (marks s) is) is

theorem around_eq_append (ms : List Mark) (is : List (Item Mark)) :
    around ms is = ms.map opened ++ is ++ ms.reverse.map closed := by
  induction ms with
  | nil => simp [around]
  | cons m ms ih =>
    rw [around, List.foldr_cons, ← around, ih]
    simp

theorem nested_around (ms : List Mark) {is : List (Item Mark)} (h : Nested is) :
    Nested (around ms is) := by
  induction ms with
  | nil => exact h
  | cons m ms ih => exact ih.within m .nil

theorem text_around (ms : List Mark) (is : List (Item Mark)) : text (around ms is) = text is := by
  induction ms with
  | nil => rfl
  | cons m ms ih => simpa [around] using ih

theorem nested_styled (marks : Style → List Mark) (ss : List Style) {is : List (Item Mark)}
    (h : Nested is) : Nested (styled marks ss is) := by
  induction ss generalizing is with
  | nil => exact h
  | cons s ss ih => exact ih (nested_around (marks s) h)

theorem text_styled (marks : Style → List Mark) (ss : List Style) (is : List (Item Mark)) :
    text (styled marks ss is) = text is := by
  induction ss generalizing is with
  | nil => rfl
  | cons s ss ih => exact (ih (around (marks s) is)).trans (text_around (marks s) is)

end Item

section Readers

variable {State Out : Type} {step : State → Char → Option (State × List Out)}

/-- Takes the steps of a reader over a text, and collects what they give. -/
def readFrom (step : State → Char → Option (State × List Out)) (s : State) :
    List Char → Option (State × List Out)
  | [] => some (s, [])
  | c :: cs => do
    let (s', first) ← step s c
    let (s'', rest) ← readFrom step s' cs
    return (s'', first ++ rest)

theorem readFrom_cons_eq_some {s s' : State} {c : Char} {cs : List Char} {is : List Out}
    (h : readFrom step s (c :: cs) = some (s', is)) :
    ∃ mid first rest, step s c = some (mid, first) ∧ readFrom step mid cs = some (s', rest) ∧
      first ++ rest = is := by
  simp only [readFrom, Option.bind_eq_bind, Option.bind_eq_some_iff] at h
  obtain ⟨⟨mid, first⟩, hstep, ⟨last, rest⟩, hrest, heq⟩ := h
  obtain ⟨rfl, rfl⟩ := Prod.mk.inj (Option.some.inj heq)
  exact ⟨mid, first, rest, hstep, hrest, rfl⟩

theorem readFrom_append {s s' s'' : State} {cs cs' : List Char} {is is' : List Out}
    (h : readFrom step s cs = some (s', is)) (h' : readFrom step s' cs' = some (s'', is')) :
    readFrom step s (cs ++ cs') = some (s'', is ++ is') := by
  induction cs generalizing s is with
  | nil =>
    obtain ⟨rfl, rfl⟩ := Prod.mk.inj (Option.some.inj h)
    exact h'
  | cons c cs ih =>
    obtain ⟨mid, first, rest, hstep, hrest, rfl⟩ := readFrom_cons_eq_some h
    simp [readFrom, hstep, ih hrest]

/-- The text gives the items and leaves the reader where it was. -/
def Reads (step : State → Char → Option (State × List Out)) (s : State) (text : String)
    (is : List Out) : Prop :=
  readFrom step s text.toList = some (s, is)

theorem Reads.append {s : State} {t t' : String} {is is' : List Out} (h : Reads step s t is)
    (h' : Reads step s t' is') : Reads step s (t ++ t') (is ++ is') := by
  rw [Reads, String.toList_append]
  exact readFrom_append h h'

theorem readFrom_flatMap {s : State} {replace : Char → List Char} {items : Char → List Out}
    (hchar : ∀ c, readFrom step s (replace c) = some (s, items c)) (cs : List Char) :
    readFrom step s (cs.flatMap replace) = some (s, cs.flatMap items) := by
  induction cs with
  | nil => rfl
  | cons c cs ih =>
    rw [List.flatMap_cons, List.flatMap_cons]
    exact readFrom_append (hchar c) ih

theorem reads_escaped {s : State} {escape : Char → List Char} {item : Char → Out}
    (hchar : ∀ c, readFrom step s (escape c) = some (s, [item c])) (t : String) :
    Reads step s (String.ofList (t.toList.flatMap escape)) (t.toList.map item) := by
  rw [Reads, String.toList_ofList, readFrom_flatMap hchar, List.map_eq_flatMap]

end Readers

end ExamVariants
