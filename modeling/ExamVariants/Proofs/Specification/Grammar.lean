import ExamVariants.Proofs.Outcome
import ExamVariants.Proofs.Question.Kind
import ExamVariants.Specification.Decode

namespace ExamVariants.Specification

open Document

inductive ScalarText : Value → String → Prop
  | text (s : String) : ScalarText (.text s) s
  | number (n : Number) : ScalarText (.number n) n.text
  | true : ScalarText (.bool true) "true"
  | false : ScalarText (.bool false) "false"

def HasKind (entries : Entries) (kind : QuestionKind) : Prop :=
  ∃ tag, Value.find? "type" entries = some (.text tag) ∧ kind.Names tag

def HasScalar (entries : Entries) (key text : String) : Prop :=
  ∃ v, Value.find? key entries = some v ∧ ScalarText v text

def HasText (entries : Entries) (key : String) (s : Segment) : Prop :=
  ∃ raw, HasScalar entries key raw ∧ Markup.parse raw = .ok s

def HasFlag (entries : Entries) (key : String) (b : Bool) : Prop :=
  Value.find? key entries = some (.bool b)

def HasPoints (entries : Entries) (points : Nat) : Prop :=
  Value.find? "points" entries = some (.number (.integer points)) ∧ points < 0x100000000

/-- The points written or, where none are, the sum over the children. -/
def HasCompoundPoints (entries : Entries) (children : List Question) (points : Nat) : Prop :=
  HasPoints entries points ∨
    Value.find? "points" entries = none ∧ points = Question.sumPoints children

inductive IsChoice : Value → Choice → Prop
  | mapping {entries : Entries} {isCorrect : Bool} {statement : Segment}
    (hcorrect : HasFlag entries "correct" isCorrect)
    (hstatement : HasText entries "statement" statement) :
    IsChoice (.mapping entries) ⟨isCorrect, statement⟩

/-- The options of a question and the children of one are lists, of which nothing is left out and
nothing moved. -/
inductive IsQuestion : Value → Question → Prop
  | openEnded {entries : Entries} {statement modelAnswer : Segment} {points : Nat}
    {answerLength : String} (hkind : HasKind entries .openEnded)
    (hstatement : HasText entries "statement" statement)
    (hanswer : HasText entries "answer" modelAnswer) (hpoints : HasPoints entries points)
    (hlength : HasScalar entries "length" answerLength) :
    IsQuestion (.mapping entries) (.openEnded statement modelAnswer points answerLength)
  | closedEnded {entries : Entries} {statement : Segment} {points : Nat} {options : List Value}
    {choices : List Choice} (hkind : HasKind entries .closedEnded)
    (hstatement : HasText entries "statement" statement) (hpoints : HasPoints entries points)
    (hoptions : Value.find? "options" entries = some (.list options))
    (hchoices : List.Forall₂ IsChoice options choices) :
    IsQuestion (.mapping entries) (.closedEnded statement points choices)
  | trueFalse {entries : Entries} {statement : Segment} {answer : Bool} {points : Nat}
    (hkind : HasKind entries .trueFalse) (hstatement : HasText entries "statement" statement)
    (hanswer : HasFlag entries "answer" answer) (hpoints : HasPoints entries points) :
    IsQuestion (.mapping entries) (.trueFalse statement answer points)
  | compound {entries : Entries} {statement : Segment} {points : Nat} {nodes : List Value}
    {children : List Question} (hkind : HasKind entries .compound)
    (hstatement : HasText entries "statement" statement)
    (hnodes : Value.find? "children" entries = some (.list nodes))
    (hchildren : List.Forall₂ IsQuestion nodes children)
    (hpoints : HasCompoundPoints entries children points) :
    IsQuestion (.mapping entries) (.compound statement points children)

variable {place : Place} {entries : Entries} {key : String}

theorem find?_cons {k : String} {v : Value} : Value.find? key ((k, v) :: entries) =
    if key = k then some v else Value.find? key entries := by
  rw [Value.find?, List.lookup_cons]
  by_cases hk : key = k
  · rw [if_pos hk, hk, beq_self_eq_true]
  · rw [if_neg hk, beq_false_of_ne hk, Value.find?]

theorem required_eq_ok_iff {v : Value} :
    required place entries key = .ok v ↔ Value.find? key entries = some v := by
  rw [required]
  cases Value.find? key entries <;> simp

theorem scalarText?_eq_some_iff {v : Value} {text : String} :
    v.scalarText? = some text ↔ ScalarText v text := by
  constructor
  · intro h
    cases v with
    | null | list | mapping => cases h
    | text =>
      cases h
      exact .text _
    | number =>
      cases h
      exact .number _
    | bool b =>
      cases b <;> cases h
      · exact .false
      · exact .true
  · intro h
    cases h <;> rfl

theorem scalarField_eq_ok_iff {text : String} :
    scalarField place entries key = .ok text ↔ HasScalar entries key text := by
  simp only [scalarField, bind_eq_ok_iff, required_eq_ok_iff, HasScalar, ← scalarText?_eq_some_iff]
  refine exists_congr fun v => and_congr_right fun _ => ?_
  cases v.scalarText? with
  | none => exact iff_of_false nofun nofun
  | some t => simp [pure_eq_ok_iff]

theorem textField_eq_ok_iff {s : Segment} :
    textField place entries key = .ok s ↔ HasText entries key s := by
  simp only [textField, bind_eq_ok_iff, scalarField_eq_ok_iff, HasText, markup,
    mapError_eq_ok_iff]

theorem booleanField_eq_ok_iff {b : Bool} :
    booleanField place entries key = .ok b ↔ HasFlag entries key b := by
  simp only [booleanField, bind_eq_ok_iff, required_eq_ok_iff, HasFlag]
  constructor
  · rintro ⟨v, hv, h⟩
    split at h
    · rw [hv, pure_eq_ok_iff.mp h]
    · cases h
  · intro h
    exact ⟨_, h, rfl⟩

theorem count?_eq_some_iff {v : Value} {n : Nat} :
    v.count? = some n ↔ v = .number (.integer n) ∧ n < 0x100000000 := by
  constructor
  · intro h
    refine ⟨?_, Value.count?_lt h⟩
    cases v with
    | null | bool | text | list | mapping => cases h
    | number x =>
      have hx := (Option.filter_eq_some_iff.mp h).1
      cases x with
      | real => cases hx
      | integer i =>
        cases i with
        | negSucc => cases hx
        | ofNat m =>
          cases hx
          rfl
  · rintro ⟨rfl, hn⟩
    rw [Value.count?, Option.filter_eq_some_iff]
    exact ⟨rfl, decide_eq_true hn⟩

theorem pointsField_eq_ok_iff {points : Nat} :
    pointsField place entries = .ok points ↔ HasPoints entries points := by
  simp only [pointsField, bind_eq_ok_iff, required_eq_ok_iff, HasPoints]
  constructor
  · rintro ⟨v, hv, h⟩
    split at h
    · next hcount =>
      obtain ⟨rfl, hpoints⟩ := count?_eq_some_iff.mp hcount
      rw [← pure_eq_ok_iff.mp h]
      exact ⟨hv, hpoints⟩
    · cases h
  · rintro ⟨hv, hpoints⟩
    refine ⟨_, hv, ?_⟩
    rw [count?_eq_some_iff.mpr ⟨rfl, hpoints⟩]
    rfl

theorem kindField_eq_ok_iff {kind : QuestionKind} :
    kindField place entries = .ok kind ↔ HasKind entries kind := by
  simp only [kindField, bind_eq_ok_iff, required_eq_ok_iff, HasKind, ← QuestionKind.ofName?_eq_some_iff]
  constructor
  · rintro ⟨v, hv, h⟩
    split at h
    · split at h
      · next hname =>
        rw [pure_eq_ok_iff] at h
        exact ⟨_, hv, h ▸ hname⟩
      · cases h
    · cases h
  · rintro ⟨tag, hv, hname⟩
    refine ⟨_, hv, ?_⟩
    simp only [hname]
    rfl

theorem decodeChoice_eq_ok_iff {v : Value} {c : Choice} :
    decodeChoice place v = .ok c ↔ IsChoice v c := by
  constructor
  · intro h
    cases v with
    | null | bool | number | text | list => cases h
    | mapping entries =>
      simp only [decodeChoice, bind_eq_ok_iff, booleanField_eq_ok_iff, textField_eq_ok_iff,
        pure_eq_ok_iff] at h
      obtain ⟨isCorrect, hcorrect, statement, hstatement, rfl⟩ := h
      exact .mapping hcorrect hstatement
  · rintro ⟨hcorrect, hstatement⟩
    simp only [decodeChoice, bind_eq_ok_iff, booleanField_eq_ok_iff, textField_eq_ok_iff,
      pure_eq_ok_iff]
    exact ⟨_, hcorrect, _, hstatement, rfl⟩

theorem eachIndexed_eq_ok_iff {α β : Type} {f : Nat → α → Except Error β} {R : α → β → Prop}
    {xs : List α} (hf : ∀ x ∈ xs, ∀ i y, f i x = .ok y ↔ R x y) {i : Nat} {ys : List β} :
    eachIndexed f i xs = .ok ys ↔ List.Forall₂ R xs ys := by
  induction xs generalizing i ys with
  | nil =>
    rw [List.forall₂_nil_left_iff, eachIndexed, Except.ok.injEq, eq_comm]
  | cons x xs ih =>
    rw [List.forall_mem_cons] at hf
    simp only [eachIndexed, bind_eq_ok_iff, pure_eq_ok_iff, hf.1, ih hf.2]
    constructor
    · rintro ⟨y, hy, ys, hys, rfl⟩
      exact .cons hy hys
    · intro h
      cases h with
      | cons hy hys => exact ⟨_, hy, _, hys, rfl⟩

/-- Options, children and questions are all lists under a key, read by a decoder of their own. -/
theorem listField_eq_ok_iff {β : Type} {f : List Value → Except Error β} {e : Error} {y : β} :
    (required place entries key >>= fun v => match v with
      | .list items => f items
      | _ => .error e) = .ok y ↔
    ∃ items, Value.find? key entries = some (.list items) ∧ f items = .ok y := by
  simp only [bind_eq_ok_iff, required_eq_ok_iff]
  constructor
  · rintro ⟨v, hv, h⟩
    split at h
    · exact ⟨_, hv, h⟩
    · cases h
  · rintro ⟨items, hv, h⟩
    exact ⟨_, hv, h⟩

theorem choicesField_eq_ok_iff {choices : List Choice} :
    choicesField place entries = .ok choices ↔
      ∃ options, Value.find? "options" entries = some (.list options) ∧
        List.Forall₂ IsChoice options choices := by
  apply listField_eq_ok_iff.trans
  refine exists_congr fun options => and_congr_right fun _ => ?_
  apply eachIndexed_eq_ok_iff
  intro v _ k c
  exact decodeChoice_eq_ok_iff

theorem compoundPoints_eq_ok_iff {children : List Question} {points : Nat} :
    compoundPoints place entries children = .ok points ↔
      HasCompoundPoints entries children points := by
  rw [compoundPoints, HasCompoundPoints, ← @pointsField_eq_ok_iff place]
  cases hfind : Value.find? "points" entries with
  | none =>
    have hmissing : pointsField place entries ≠ .ok points := by
      rw [Ne, pointsField_eq_ok_iff, HasPoints, hfind]
      exact nofun
    simp [hmissing, eq_comm]
  | some v => simp

theorem decodeEach_eq_eachIndexed {placeAt : Nat → Place} {i : Nat} {nodes : List Value} :
    decodeEach placeAt i nodes = eachIndexed (fun k v => decodeQuestion (placeAt k) v) i nodes := by
  induction nodes generalizing i with
  | nil => rfl
  | cons v vs ih => rw [decodeEach, eachIndexed, ih]

theorem decodeEach_eq_ok_iff {placeAt : Nat → Place} {i : Nat} {nodes : List Value}
    {qs : List Question}
    (hnodes : ∀ node ∈ nodes, ∀ place q, decodeQuestion place node = .ok q ↔ IsQuestion node q) :
    decodeEach placeAt i nodes = .ok qs ↔ List.Forall₂ IsQuestion nodes qs := by
  rw [decodeEach_eq_eachIndexed]
  exact eachIndexed_eq_ok_iff fun node hnode k q => hnodes node hnode (placeAt k) q

/-- The recursion over the entries is a look-up. -/
theorem decodeChildren_eq_bind : decodeChildren place entries =
    required place entries "children" >>= fun v => match v with
      | .list nodes => decodeEach (Place.child place) 0 nodes
      | _ => .error (.invalidField place "children" .questions) := by
  induction entries with
  | nil => rfl
  | cons entry entries ih =>
    obtain ⟨key, v⟩ := entry
    rw [decodeChildren.eq_def, required, find?_cons]
    dsimp only
    by_cases hkey : key = "children"
    · rw [if_pos hkey, if_pos hkey.symm]
      cases v <;> rfl
    · rw [if_neg hkey, if_neg (Ne.symm hkey), ih, required]

section Mapping

-- One level of the decoder: what it takes of the children is assumed here.
variable {q : Question} (hchildren : ∀ children, decodeChildren place entries = .ok children ↔
  ∃ nodes, Value.find? "children" entries = some (.list nodes) ∧
    List.Forall₂ IsQuestion nodes children)

include hchildren

theorem isQuestion_of_decodeQuestion (h : decodeQuestion place (.mapping entries) = .ok q) :
    IsQuestion (.mapping entries) q := by
  simp only [decodeQuestion, bind_eq_ok_iff, kindField_eq_ok_iff, textField_eq_ok_iff] at h
  obtain ⟨kind, hkind, statement, hstatement, h⟩ := h
  cases kind with
  | openEnded =>
    simp only [bind_eq_ok_iff, textField_eq_ok_iff, pointsField_eq_ok_iff, scalarField_eq_ok_iff,
      pure_eq_ok_iff] at h
    obtain ⟨modelAnswer, hanswer, points, hpoints, answerLength, hlength, rfl⟩ := h
    exact .openEnded hkind hstatement hanswer hpoints hlength
  | closedEnded =>
    simp only [bind_eq_ok_iff, pointsField_eq_ok_iff, choicesField_eq_ok_iff, pure_eq_ok_iff] at h
    obtain ⟨points, hpoints, choices, ⟨options, hoptions, hchoices⟩, rfl⟩ := h
    exact .closedEnded hkind hstatement hpoints hoptions hchoices
  | trueFalse =>
    simp only [bind_eq_ok_iff, booleanField_eq_ok_iff, pointsField_eq_ok_iff, pure_eq_ok_iff] at h
    obtain ⟨answer, hanswer, points, hpoints, rfl⟩ := h
    exact .trueFalse hkind hstatement hanswer hpoints
  | compound =>
    simp only [bind_eq_ok_iff, hchildren, compoundPoints_eq_ok_iff, pure_eq_ok_iff] at h
    obtain ⟨children, ⟨nodes, hnodes, hquestions⟩, points, hpoints, rfl⟩ := h
    exact .compound hkind hstatement hnodes hquestions hpoints

theorem decodeQuestion_of_isQuestion (h : IsQuestion (.mapping entries) q) :
    decodeQuestion place (.mapping entries) = .ok q := by
  simp only [decodeQuestion, bind_eq_ok_iff, kindField_eq_ok_iff, textField_eq_ok_iff]
  cases h with
  | openEnded hkind hstatement hanswer hpoints hlength =>
    refine ⟨_, hkind, _, hstatement, ?_⟩
    simp only [bind_eq_ok_iff, textField_eq_ok_iff, pointsField_eq_ok_iff, scalarField_eq_ok_iff,
      pure_eq_ok_iff]
    exact ⟨_, hanswer, _, hpoints, _, hlength, rfl⟩
  | closedEnded hkind hstatement hpoints hoptions hchoices =>
    refine ⟨_, hkind, _, hstatement, ?_⟩
    simp only [bind_eq_ok_iff, pointsField_eq_ok_iff, choicesField_eq_ok_iff, pure_eq_ok_iff]
    exact ⟨_, hpoints, _, ⟨_, hoptions, hchoices⟩, rfl⟩
  | trueFalse hkind hstatement hanswer hpoints =>
    refine ⟨_, hkind, _, hstatement, ?_⟩
    simp only [bind_eq_ok_iff, booleanField_eq_ok_iff, pointsField_eq_ok_iff, pure_eq_ok_iff]
    exact ⟨_, hanswer, _, hpoints, rfl⟩
  | compound hkind hstatement hnodes hquestions hpoints =>
    refine ⟨_, hkind, _, hstatement, ?_⟩
    simp only [bind_eq_ok_iff, hchildren, compoundPoints_eq_ok_iff, pure_eq_ok_iff]
    exact ⟨_, ⟨_, hnodes, hquestions⟩, _, hpoints, rfl⟩

end Mapping

theorem sizeOf_lt_of_find? {nodes : List Value} {node : Value}
    (hfind : Value.find? key entries = some (.list nodes)) (hnode : node ∈ nodes) :
    sizeOf node < sizeOf (Value.mapping entries) := by
  have hentry : (key, Value.list nodes) ∈ entries := by
    obtain ⟨before, after, rfl, -⟩ := List.lookup_eq_some_iff.mp hfind
    simp
  have hentries := List.sizeOf_lt_of_mem hentry
  have hnodes := List.sizeOf_lt_of_mem hnode
  simp only [Prod.mk.sizeOf_spec, Value.list.sizeOf_spec, Value.mapping.sizeOf_spec] at *
  omega

/-- Induction over nodes: what holds of every mapping if it holds of the children listed in it, and
of all else, holds of every value. -/
theorem node_induction {motive : Value → Prop}
    (mapping : ∀ entries, (∀ nodes, Value.find? "children" entries = some (.list nodes) →
      ∀ node ∈ nodes, motive node) → motive (.mapping entries))
    (other : ∀ v, (∀ entries, v ≠ .mapping entries) → motive v) : ∀ v, motive v
  | .mapping entries => mapping entries fun _ _ node _ => node_induction mapping other node
  | .null => other _ nofun
  | .bool _ => other _ nofun
  | .number _ => other _ nofun
  | .text _ => other _ nofun
  | .list _ => other _ nofun
termination_by v => sizeOf v
decreasing_by exact sizeOf_lt_of_find? ‹_› ‹_›

theorem decodeQuestion_eq_ok_iff {v : Value} :
    ∀ {place q}, decodeQuestion place v = .ok q ↔ IsQuestion v q := by
  induction v using node_induction with
  | other v hv =>
    intro place q
    cases v with
    | mapping entries => exact absurd rfl (hv entries)
    | null | bool | number | text | list => exact iff_of_false nofun nofun
  | mapping entries ih =>
    intro place q
    have hchildren (children : List Question) : decodeChildren place entries = .ok children ↔
        ∃ nodes, Value.find? "children" entries = some (.list nodes) ∧
          List.Forall₂ IsQuestion nodes children := by
      rw [decodeChildren_eq_bind, listField_eq_ok_iff]
      refine exists_congr fun nodes => and_congr_right fun hnodes => ?_
      exact decodeEach_eq_ok_iff fun node hnode _ _ => ih nodes hnodes node hnode
    exact ⟨isQuestion_of_decodeQuestion hchildren, decodeQuestion_of_isQuestion hchildren⟩

theorem decodeQuestions_eq_ok_iff {qs : List Question} :
    decodeQuestions entries = .ok qs ↔
      ∃ nodes, Value.find? "questions" entries = some (.list nodes) ∧
        List.Forall₂ IsQuestion nodes qs := by
  apply listField_eq_ok_iff.trans
  refine exists_congr fun nodes => and_congr_right fun _ => ?_
  exact decodeEach_eq_ok_iff fun _ _ _ _ => decodeQuestion_eq_ok_iff

end ExamVariants.Specification
