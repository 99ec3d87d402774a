import ExamVariants.Proofs.Specification.Grammar

namespace ExamVariants.Specification

open Document

/-- What a node is read as. -/
inductive Role where
  | document
  | question
  | choice
  deriving DecidableEq

inductive NodeList where
  | questions
  | children
  | options

namespace NodeList

def key : NodeList → String
  | questions => "questions"
  | children => "children"
  | options => "options"

def expected : NodeList → Expected
  | questions | children => .questions
  | options => .options

def role : NodeList → Role
  | questions | children => .question
  | options => .choice

def placeAt (of : Place) : NodeList → Nat → Place
  | questions => .question
  | children => .child of
  | options => .option of

end NodeList

inductive Field where
  | kind
  | text (key : String)
  | scalar (key : String)
  | flag (key : String)
  | points
  | nodes (list : NodeList)

namespace Field

def key : Field → String
  | kind => "type"
  | text key | scalar key | flag key => key
  | points => "points"
  | nodes list => list.key

def expected : Field → Expected
  | kind => .string
  | text _ | scalar _ => .scalar
  | flag _ => .boolean
  | points => .count
  | nodes list => list.expected

end Field

def kind? (entries : Entries) : Option QuestionKind :=
  match Value.find? "type" entries with
  | some (.text tag) => QuestionKind.ofName? tag
  | _ => none

/-- The fields that only questions of this kind have; points may be left out of a compound one. -/
def fieldsOfKind (entries : Entries) : QuestionKind → List Field
  | .openEnded => [.text "answer", .points, .scalar "length"]
  | .closedEnded => [.points, .nodes .options]
  | .trueFalse => [.flag "answer", .points]
  | .compound =>
    .nodes .children :: if (Value.find? "points" entries).isSome then [.points] else []

/-- The fields of a node in the order in which they are looked at. -/
def Role.fields (entries : Entries) : Role → List Field
  | document => [.nodes .questions]
  | question =>
    .kind :: match kind? entries with
      | some kind => .text "statement" :: fieldsOfKind entries kind
      | none => []
  | choice => [.flag "correct", .text "statement"]

def Expected.Admits : Expected → Value → Prop
  | string, v => ∃ s, v = .text s
  | scalar, v => ∃ t, ScalarText v t
  | boolean, v => ∃ b, v = .bool b
  | count, v => ∃ n : Nat, v = .number (.integer n) ∧ n < 0x100000000
  | options, v | questions, v => ∃ items, v = .list items

def Role.Decodes : Role → Value → Prop
  | document, v => ∃ exam, decode v = .ok exam
  | question, v => ∃ q, IsQuestion v q
  | choice, v => ∃ c, IsChoice v c

def Field.Sound (entries : Entries) : Field → Prop
  | kind => ∃ kind, HasKind entries kind
  | text key => ∃ s, HasText entries key s
  | scalar key => ∃ t, HasScalar entries key t
  | flag key => ∃ b, HasFlag entries key b
  | points => ∃ n, HasPoints entries n
  | nodes list => ∃ items, Value.find? list.key entries = some (.list items) ∧
      ∀ v ∈ items, list.role.Decodes v

theorem NodeList.admits_expected {list : NodeList} {v : Value} :
    list.expected.Admits v ↔ ∃ items, v = .list items := by
  cases list <;> rfl

/-- What is wrong with a field itself, items of a list apart. -/
inductive Fault (place : Place) (entries : Entries) : Field → Error → Prop
  | missing {f : Field} (hfind : Value.find? f.key entries = none) :
      Fault place entries f (.missingField place f.key)
  | invalid {f : Field} {v : Value} (hfind : Value.find? f.key entries = some v)
      (hv : ¬f.expected.Admits v) : Fault place entries f (.invalidField place f.key f.expected)
  | unknownKind {tag : String} (hfind : Value.find? "type" entries = some (.text tag))
      (htag : ∀ kind : QuestionKind, ¬kind.Names tag) :
      Fault place entries .kind (.unknownQuestionType place tag)
  | markup {key raw : String} {source : Markup.UnknownStyle} (hraw : HasScalar entries key raw)
      (hparse : Markup.parse raw = .error source) :
      Fault place entries (.text key) (.markup (.field place key) source)

def Role.shapeFault (place : Place) : Role → ShapeFault
  | document => .document
  | question | choice => .node place

/-- The error is that of the first defect of the node at the place: all fields before the one with
the defect are sound, and so are all items before the one with the defect. -/
inductive FirstDefect : Role → Place → Value → Error → Prop
  | shape {role : Role} {place : Place} {v : Value} (hv : ∀ entries, v ≠ .mapping entries) :
      FirstDefect role place v (.invalidDocument (role.shapeFault place))
  | field {role : Role} {place : Place} {entries : Entries} {before after : List Field} {f : Field}
      {e : Error} (hfields : role.fields entries = before ++ f :: after)
      (hbefore : ∀ g ∈ before, g.Sound entries) (hfault : Fault place entries f e) :
      FirstDefect role place (.mapping entries) e
  | inside {role : Role} {place : Place} {entries : Entries} {before after : List Field}
      {list : NodeList} {us ws : List Value} {v : Value} {e : Error}
      (hfields : role.fields entries = before ++ .nodes list :: after)
      (hbefore : ∀ g ∈ before, g.Sound entries)
      (hitems : Value.find? list.key entries = some (.list (us ++ v :: ws)))
      (hus : ∀ u ∈ us, list.role.Decodes u)
      (hv : FirstDefect list.role (list.placeAt place us.length) v e) :
      FirstDefect role place (.mapping entries) e

variable {place : Place} {entries : Entries} {role : Role} {f : Field} {fs : List Field} {v : Value}
  {e : Error}

/-- The first defect of a field: its own, or that of the first item with one. -/
def FieldDefect (place : Place) (entries : Entries) (f : Field) (e : Error) : Prop :=
  Fault place entries f e ∨ ∃ list us v ws, f = .nodes list ∧
    Value.find? list.key entries = some (.list (us ++ v :: ws)) ∧
    (∀ u ∈ us, list.role.Decodes u) ∧ FirstDefect list.role (list.placeAt place us.length) v e

def DefectAmong (place : Place) (entries : Entries) (fields : List Field) (e : Error) : Prop :=
  ∃ before f after, fields = before ++ f :: after ∧ (∀ g ∈ before, g.Sound entries) ∧
    FieldDefect place entries f e

theorem not_defectAmong_nil : ¬DefectAmong place entries [] e := by
  rintro ⟨before, f, after, hfields, -⟩
  cases before <;> cases hfields

theorem defectAmong_cons : DefectAmong place entries (f :: fs) e ↔
    FieldDefect place entries f e ∨ f.Sound entries ∧ DefectAmong place entries fs e := by
  constructor
  · rintro ⟨before, g, after, hfields, hbefore, hg⟩
    cases before with
    | nil =>
      obtain ⟨rfl, rfl⟩ := List.cons.inj hfields
      exact .inl hg
    | cons b before =>
      obtain ⟨rfl, rfl⟩ := List.cons.inj hfields
      obtain ⟨hb, hbefore⟩ := List.forall_mem_cons.mp hbefore
      exact .inr ⟨hb, before, g, after, rfl, hbefore, hg⟩
  · rintro (hf | ⟨hf, before, g, after, rfl, hbefore, hg⟩)
    · exact ⟨[], f, fs, rfl, List.forall_mem_nil _, hf⟩
    · exact ⟨f :: before, g, after, rfl, List.forall_mem_cons.mpr ⟨hf, hbefore⟩, hg⟩

theorem firstDefect_mapping_iff :
    FirstDefect role place (.mapping entries) e ↔
      DefectAmong place entries (role.fields entries) e := by
  constructor
  · intro h
    cases h with
    | shape hv => exact absurd rfl (hv entries)
    | field hfields hbefore hfault => exact ⟨_, _, _, hfields, hbefore, .inl hfault⟩
    | inside hfields hbefore hitems hus hv =>
      exact ⟨_, _, _, hfields, hbefore, .inr ⟨_, _, _, _, rfl, hitems, hus, hv⟩⟩
  · rintro ⟨before, f, after, hfields, hbefore, hfault | hinside⟩
    · exact .field hfields hbefore hfault
    · obtain ⟨list, us, v, ws, rfl, hitems, hus, hv⟩ := hinside
      exact .inside hfields hbefore hitems hus hv

theorem firstDefect_other_iff (hv : ∀ entries, v ≠ .mapping entries) :
    FirstDefect role place v e ↔ .invalidDocument (role.shapeFault place) = e := by
  constructor
  · intro h
    cases h with
    | shape => rfl
    | field => exact absurd rfl (hv _)
    | inside => exact absurd rfl (hv _)
  · rintro rfl
    exact .shape hv

theorem fieldDefect_of_missing (hfind : Value.find? f.key entries = none) :
    FieldDefect place entries f e ↔ .missingField place f.key = e := by
  constructor
  · rintro (hfault | ⟨list, us, v, ws, rfl, hitems, -⟩)
    · cases hfault with
      | missing => rfl
      | invalid hsome => cases hfind.symm.trans hsome
      | unknownKind hsome => cases hfind.symm.trans hsome
      | markup hraw =>
        obtain ⟨v, hsome, -⟩ := hraw
        cases hfind.symm.trans hsome
    · cases hfind.symm.trans hitems
  · rintro rfl
    exact .inl (.missing hfind)

theorem fieldDefect_of_not_admits (hfind : Value.find? f.key entries = some v)
    (hv : ¬f.expected.Admits v) :
    FieldDefect place entries f e ↔ .invalidField place f.key f.expected = e := by
  constructor
  · rintro (hfault | ⟨list, us, v, ws, rfl, hitems, -⟩)
    · cases hfault with
      | missing hnone => cases hnone.symm.trans hfind
      | invalid => rfl
      | unknownKind hsome =>
        obtain rfl := Option.some.inj (hfind.symm.trans hsome)
        exact absurd ⟨_, rfl⟩ hv
      | markup hraw =>
        obtain ⟨w, hsome, hscalar⟩ := hraw
        obtain rfl := Option.some.inj (hfind.symm.trans hsome)
        exact absurd ⟨_, hscalar⟩ hv
    · obtain rfl := Option.some.inj (hfind.symm.trans hitems)
      exact absurd (NodeList.admits_expected.mpr ⟨_, rfl⟩) hv
  · rintro rfl
    exact .inl (.invalid hfind hv)

theorem not_fieldDefect_of_admits (hfind : Value.find? f.key entries = some v)
    (hv : f.expected.Admits v) (hkind : f ≠ .kind) (htext : ∀ key, f ≠ .text key)
    (hnodes : ∀ list, f ≠ .nodes list) : ¬FieldDefect place entries f e := by
  rintro (hfault | ⟨list, us, w, ws, hlist, -⟩)
  · cases hfault with
    | missing hnone => cases hnone.symm.trans hfind
    | invalid hsome hw =>
      obtain rfl := Option.some.inj (hfind.symm.trans hsome)
      exact hw hv
    | unknownKind => exact hkind rfl
    | markup => exact htext _ rfl
  · exact hnodes list hlist

theorem fieldDefect_kind_iff {tag : String}
    (hfind : Value.find? "type" entries = some (.text tag)) :
    FieldDefect place entries .kind e ↔
      (∀ kind : QuestionKind, ¬kind.Names tag) ∧ .unknownQuestionType place tag = e := by
  constructor
  · rintro (hfault | ⟨list, us, w, ws, hlist, -⟩)
    · cases hfault with
      | missing hnone => cases hnone.symm.trans hfind
      | invalid hsome hw =>
        obtain rfl := Option.some.inj (hfind.symm.trans hsome)
        exact absurd ⟨tag, rfl⟩ hw
      | unknownKind hsome htag =>
        cases hfind.symm.trans hsome
        exact ⟨htag, rfl⟩
    · cases hlist
  · rintro ⟨htag, rfl⟩
    exact .inl (.unknownKind hfind htag)

theorem fieldDefect_text_iff {key : String} :
    FieldDefect place entries (.text key) e ↔ FieldDefect place entries (.scalar key) e ∨
      ∃ raw source, HasScalar entries key raw ∧ Markup.parse raw = .error source ∧
        .markup (.field place key) source = e := by
  constructor
  · rintro (hfault | ⟨list, us, w, ws, hlist, -⟩)
    · cases hfault with
      | missing hnone => exact .inl (.inl (.missing (f := .scalar key) hnone))
      | invalid hsome hw => exact .inl (.inl (.invalid (f := .scalar key) hsome hw))
      | markup hraw hparse => exact .inr ⟨_, _, hraw, hparse, rfl⟩
    · cases hlist
  · rintro ((hfault | ⟨list, us, w, ws, hlist, -⟩) | ⟨raw, source, hraw, hparse, rfl⟩)
    · cases hfault with
      | missing hnone => exact .inl (.missing (f := .text key) hnone)
      | invalid hsome hw => exact .inl (.invalid (f := .text key) hsome hw)
    · cases hlist
    · exact .inl (.markup hraw hparse)

theorem fieldDefect_nodes_iff {list : NodeList} {items : List Value}
    (hfind : Value.find? list.key entries = some (.list items)) :
    FieldDefect place entries (.nodes list) e ↔ ∃ us v ws, items = us ++ v :: ws ∧
      (∀ u ∈ us, list.role.Decodes u) ∧
      FirstDefect list.role (list.placeAt place us.length) v e := by
  constructor
  · rintro (hfault | ⟨_, us, v, ws, hlist, hitems, hus, hv⟩)
    · cases hfault with
      | missing hnone => cases hnone.symm.trans hfind
      | invalid hsome hw =>
        obtain rfl := Option.some.inj (hfind.symm.trans hsome)
        exact absurd (NodeList.admits_expected.mpr ⟨items, rfl⟩) hw
    · cases hlist
      cases hfind.symm.trans hitems
      exact ⟨us, v, ws, rfl, hus, hv⟩
  · rintro ⟨us, v, ws, rfl, hus, hv⟩
    exact .inr ⟨list, us, v, ws, rfl, hfind, hus, hv⟩

end ExamVariants.Specification
