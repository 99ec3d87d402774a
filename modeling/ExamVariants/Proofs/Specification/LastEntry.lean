import Mathlib.Data.List.Induction
import ExamVariants.Proofs.Document.Tables
import ExamVariants.Proofs.Question.Kind

namespace ExamVariants

namespace Parameter

/-- The character in upper case, and `_` for `-`. -/
def plain (c : Char) : Char :=
  if c.toUpper = '-' then '_' else c.toUpper

/-- Blanks around a key, its letter case, and `-` in the place of `_` do not count. -/
def Names (p : Parameter) (key : String) : Prop :=
  Text.Spells plain p.name key

variable {p q : Parameter} {key : String}

theorem plain_of_isBlank {c : Char} (h : Text.isBlank c = true) : plain c = c := by
  have hbounds := Text.toNat_of_isBlank h
  have hupper : c.toUpper = c := by
    unfold Char.toUpper
    apply dif_neg
    rintro ⟨hlow, hhigh⟩
    have hlow : 97 ≤ c.toNat := hlow
    have hhigh : c.toNat ≤ 122 := hhigh
    omega
  have hne : c ≠ '-' := by
    rintro rfl
    revert hbounds
    decide
  rw [plain, hupper, if_neg hne]

theorem names_iff :
    p.Names key ↔ (Text.stripChars key.toList).map plain = p.name.toList := by
  apply Text.spells_iff fun c => plain_of_isBlank
  cases p <;> decide

theorem ofName?_eq_some_iff : ofName? key = some p ↔ p.Names key := by
  have hwanted : (Text.replaceChar '-' '_' (Text.upper (Text.strip key))).toList =
      (Text.stripChars key.toList).map plain := by
    simp [Text.replaceChar, Text.upper, Function.comp_def, plain]
  have hname : ∀ r, all.find? (name · == name r) = some r := by
    intro r
    cases r <;> rfl
  rw [names_iff, ofName?, Text.find?_name_eq_some_iff hname, ← String.toList_inj, hwanted]

theorem Names.unique (hp : p.Names key) (hq : q.Names key) : p = q :=
  Option.some.inj ((ofName?_eq_some_iff.mpr hp).symm.trans (ofName?_eq_some_iff.mpr hq))

end Parameter

theorem Parameters.bind_comm (ps : Parameters) {p q : Parameter} (h : p ≠ q)
    (v w : ParameterValue) : (ps.bind p v).bind q w = (ps.bind q w).bind p v := by
  funext r
  grind [Parameters.bind]

namespace Specification

open Document

def Binds (entry : String × Value) (p : Parameter) (v : ParameterValue) : Prop :=
  p.Names entry.1 ∧ decodeParameterValue p entry.2 = .ok v

theorem bindEntry_of_none {ps : Parameters} {entry : String × Value}
    (h : Parameter.ofName? entry.1 = none) :
    bindEntry ps entry = .error (.unknownParameter entry.1) := by
  -- The equation of the definition would take seconds to derive.
  delta bindEntry
  rw [h]
  rfl

theorem bindEntry_of_some {ps : Parameters} {entry : String × Value} {p : Parameter}
    (h : Parameter.ofName? entry.1 = some p) :
    bindEntry ps entry = ps.bind p <$> decodeParameterValue p entry.2 := by
  delta bindEntry
  rw [h]
  exact (map_eq_pure_bind _ _).symm

theorem bindEntry_eq_ok_iff {ps qs : Parameters} {entry : String × Value} :
    bindEntry ps entry = .ok qs ↔ ∃ p v, Binds entry p v ∧ ps.bind p v = qs := by
  simp only [Binds, ← Parameter.ofName?_eq_some_iff]
  cases hname : Parameter.ofName? entry.1 with
  | none =>
    rw [bindEntry_of_none hname]
    exact iff_of_false nofun (by simp)
  | some p =>
    rw [bindEntry_of_some hname]
    simp [map_eq_ok_iff, and_assoc]

/-- What the last of the entries that name the parameter binds it to, if any of them does. -/
inductive LastBinds (p : Parameter) : Entries → Option ParameterValue → Prop
  | unnamed {entries : Entries} (h : ∀ e ∈ entries, ¬p.Names e.1) : LastBinds p entries none
  | last (before : Entries) {entry : String × Value} {after : Entries} {v : ParameterValue}
    (hentry : Binds entry p v) (hafter : ∀ e ∈ after, ¬p.Names e.1) :
    LastBinds p (before ++ entry :: after) (some v)

namespace LastBinds

variable {p : Parameter} {entries : Entries} {entry : String × Value}
  {x y : Option ParameterValue}

theorem eq_none (h : LastBinds p [] x) : x = none := by
  generalize hentries : ([] : Entries) = entries at h
  cases h with
  | unnamed => rfl
  | last before => exact absurd hentries.symm (List.append_ne_nil_of_right_ne_nil before nofun)

theorem forall_mem_concat {P : String × Value → Prop} :
    (∀ e ∈ entries ++ [entry], P e) ↔ (∀ e ∈ entries, P e) ∧ P entry := by
  rw [List.forall_mem_append, List.forall_mem_singleton]

theorem concat_iff : LastBinds p (entries ++ [entry]) x ↔
    (∃ v, Binds entry p v ∧ x = some v) ∨ ¬p.Names entry.1 ∧ LastBinds p entries x := by
  constructor
  · intro h
    generalize hall : entries ++ [entry] = all at h
    cases h with
    | unnamed h =>
      rw [← hall, forall_mem_concat] at h
      exact .inr ⟨h.2, .unnamed h.1⟩
    | @last before e after v he hafter =>
      -- Either the new entry counts, or it stands behind the one that does and names another.
      rcases List.eq_nil_or_concat' after with rfl | ⟨after, f, rfl⟩
      · obtain ⟨-, hlast⟩ := List.append_inj' hall rfl
        obtain rfl := List.singleton_inj.mp hlast
        exact .inl ⟨v, he, rfl⟩
      · rw [← List.cons_append, ← List.append_assoc] at hall
        obtain ⟨rfl, hlast⟩ := List.append_inj' hall rfl
        obtain rfl := List.singleton_inj.mp hlast
        rw [forall_mem_concat] at hafter
        exact .inr ⟨hafter.2, .last before he hafter.1⟩
  · rintro (⟨v, hentry, rfl⟩ | ⟨hname, h⟩)
    · exact .last entries hentry (List.forall_mem_nil _)
    · cases h with
      | unnamed h => exact .unnamed (forall_mem_concat.mpr ⟨h, hname⟩)
      | last before hentry hafter =>
        rw [List.append_assoc, List.cons_append]
        exact .last before hentry (forall_mem_concat.mpr ⟨hafter, hname⟩)

theorem unique (hx : LastBinds p entries x) (hy : LastBinds p entries y) : x = y := by
  induction entries using List.reverseRecOn with
  | nil => rw [hx.eq_none, hy.eq_none]
  | append_singleton entries entry ih =>
    rcases concat_iff.mp hx with ⟨v, hv, rfl⟩ | ⟨hname, hx⟩
    · rcases concat_iff.mp hy with ⟨w, hw, rfl⟩ | ⟨hname, -⟩
      · exact congrArg some (Except.ok.inj (hv.2.symm.trans hw.2))
      · exact absurd hv.1 hname
    · rcases concat_iff.mp hy with ⟨w, hw, rfl⟩ | ⟨-, hy⟩
      · exact absurd hw.1 hname
      · exact ih hx hy

end LastBinds

theorem lastBinds_of_foldlM {entries : Entries} {ps : Parameters}
    (h : entries.foldlM bindEntry .empty = .ok ps) :
    (∀ e ∈ entries, ∃ p v, Binds e p v) ∧ ∀ p, LastBinds p entries (ps p) := by
  induction entries using List.reverseRecOn generalizing ps with
  | nil =>
    obtain rfl := pure_eq_ok_iff.mp h
    exact ⟨List.forall_mem_nil _, fun p => .unnamed (List.forall_mem_nil _)⟩
  | append_singleton entries entry ih =>
    simp only [List.foldlM_append, List.foldlM_cons, List.foldlM_nil, bind_pure, bind_eq_ok_iff,
      bindEntry_eq_ok_iff] at h
    obtain ⟨qs, hqs, p, v, hentry, rfl⟩ := h
    obtain ⟨hall, hlast⟩ := ih hqs
    refine ⟨LastBinds.forall_mem_concat.mpr ⟨hall, p, v, hentry⟩, fun q => ?_⟩
    rw [LastBinds.concat_iff]
    by_cases hq : q = p
    · subst hq
      exact .inl ⟨v, hentry, Parameters.bind_self qs q v⟩
    · rw [Parameters.bind_of_ne qs v hq]
      exact .inr ⟨fun hname => hq (hname.unique hentry.1), hlast q⟩

theorem exists_foldlM_eq_ok {entries : Entries} (h : ∀ e ∈ entries, ∃ p v, Binds e p v)
    (ps : Parameters) : ∃ qs, entries.foldlM bindEntry ps = .ok qs := by
  induction entries generalizing ps with
  | nil => exact ⟨ps, rfl⟩
  | cons entry entries ih =>
    obtain ⟨⟨p, v, hentry⟩, hentries⟩ := List.forall_mem_cons.mp h
    obtain ⟨qs, hqs⟩ := ih hentries (ps.bind p v)
    exact ⟨qs, bind_eq_ok_iff.mpr ⟨_, bindEntry_eq_ok_iff.mpr ⟨p, v, hentry, rfl⟩, hqs⟩⟩

theorem foldlM_bindEntry_eq_ok_iff {entries : Entries} {ps : Parameters} :
    entries.foldlM bindEntry .empty = .ok ps ↔
      (∀ e ∈ entries, ∃ p v, Binds e p v) ∧ ∀ p, LastBinds p entries (ps p) := by
  refine ⟨lastBinds_of_foldlM, ?_⟩
  rintro ⟨hall, hlast⟩
  obtain ⟨qs, hqs⟩ := exists_foldlM_eq_ok hall .empty
  have heq : qs = ps := funext fun p => ((lastBinds_of_foldlM hqs).2 p).unique (hlast p)
  rw [hqs, heq]

/-- The entries of the parameters in the order in which they count: one mapping, or a list of
mappings one after another. -/
inductive LaidOut : Value → Entries → Prop
  | mapping (entries : Entries) : LaidOut (.mapping entries) entries
  | list (mappings : List Entries) : LaidOut (.list (mappings.map .mapping)) mappings.flatten

theorem exists_mappings_of_foldlM {items : List Value} {ps qs : Parameters}
    (h : items.foldlM bindMapping ps = .ok qs) :
    ∃ mappings : List Entries, items = mappings.map .mapping := by
  induction items generalizing ps with
  | nil => exact ⟨[], rfl⟩
  | cons item items ih =>
    obtain ⟨rs, hitem, h⟩ := bind_eq_ok_iff.mp h
    obtain ⟨mappings, rfl⟩ := ih h
    cases item with
    | mapping entries => exact ⟨entries :: mappings, rfl⟩
    | null | bool | number | text | list => cases hitem

theorem foldlM_bindMapping (mappings : List Entries) (ps : Parameters) :
    (mappings.map Value.mapping).foldlM bindMapping ps =
      mappings.flatten.foldlM bindEntry ps := by
  induction mappings generalizing ps with
  | nil => rfl
  | cons entries mappings ih =>
    rw [List.map_cons, List.foldlM_cons, List.flatten_cons, List.foldlM_append]
    exact bind_congr ih

theorem decodeParameters_eq_ok_iff {v : Value} {ps : Parameters} :
    decodeParameters v = .ok ps ↔
      ∃ entries, LaidOut v entries ∧ entries.foldlM bindEntry .empty = .ok ps := by
  constructor
  · intro h
    cases v with
    | mapping entries => exact ⟨entries, .mapping entries, h⟩
    | list items =>
      obtain ⟨mappings, rfl⟩ := exists_mappings_of_foldlM h
      exact ⟨mappings.flatten, .list mappings, (foldlM_bindMapping mappings .empty).symm.trans h⟩
    | null | bool | number | text => cases h
  · rintro ⟨entries, hlaid, h⟩
    cases hlaid with
    | mapping => exact h
    | list mappings => exact (foldlM_bindMapping mappings .empty).trans h

/-- A mapping counts like the list of its entries, also where it is refused. -/
theorem decodeParameters_singles (entries : Entries) :
    decodeParameters (.list (entries.map fun e => .mapping [e])) =
      decodeParameters (.mapping entries) := by
  have hsingles : (entries.map fun e => Value.mapping [e]) =
      (entries.map fun e => [e]).map Value.mapping := by
    rw [List.map_map]
    rfl
  have hflat : (entries.map fun e => [e]).flatten = entries := by
    rw [← List.flatMap_def]
    exact List.flatMap_singleton' entries
  rw [hsingles]
  exact (foldlM_bindMapping _ .empty).trans (by rw [hflat]; rfl)

theorem bindMapping_singleton (ps : Parameters) (entry : String × Value) :
    bindMapping ps (.mapping [entry]) = bindEntry ps entry := by
  rw [bindMapping, List.foldlM_cons]
  exact bind_pure _

section Exchange

variable {a b : String × Value} {p q : Parameter}
  (ha : p.Names a.1) (hb : q.Names b.1) (hne : p ≠ q)

include ha hb hne

theorem bindEntry_exchange {ps qs : Parameters}
    (h : bindEntry ps a >>= (bindEntry · b) = .ok qs) :
    bindEntry ps b >>= (bindEntry · a) = .ok qs := by
  simp only [bind_eq_ok_iff, bindEntry_eq_ok_iff] at h ⊢
  obtain ⟨_, ⟨p', v, hv, rfl⟩, q', w, hw, rfl⟩ := h
  obtain rfl := hv.1.unique ha
  obtain rfl := hw.1.unique hb
  exact ⟨_, ⟨_, w, hw, rfl⟩, _, v, hv, Parameters.bind_comm ps hne.symm w v⟩

theorem decodeParameters_exchange {before after : List Value} {ps : Parameters}
    (h : decodeParameters (.list (before ++ .mapping [a] :: .mapping [b] :: after)) = .ok ps) :
    decodeParameters (.list (before ++ .mapping [b] :: .mapping [a] :: after)) = .ok ps := by
  simp only [decodeParameters, List.foldlM_append, List.foldlM_cons, bindMapping_singleton] at h ⊢
  obtain ⟨qs, hqs, h⟩ := bind_eq_ok_iff.mp h
  rw [← bind_assoc] at h
  obtain ⟨rs, hrs, h⟩ := bind_eq_ok_iff.mp h
  refine bind_eq_ok_iff.mpr ⟨qs, hqs, ?_⟩
  rw [← bind_assoc]
  exact bind_eq_ok_iff.mpr ⟨rs, bindEntry_exchange ha hb hne hrs, h⟩

end Exchange

def parametersOf? : Value → Option Value
  | .mapping entries => Value.find? "parameters" entries
  | _ => none

theorem ascending_parametersOf? {d v : Value} (h : Ascending d) (hv : parametersOf? d = some v) :
    Ascending v := by
  cases d with
  | mapping entries => exact ascending_of_find? h hv
  | null | bool | number | text | list => cases hv

/-- The parameters of a file that loads are laid out with the keys of each mapping in order. Of all
entries that name a parameter the last one counts, the entries of a mapping may as well stand alone,
and neighbours that do not name the same parameter may change places. -/
theorem parameters_bound_by_last_entry :
    (∀ v ps, decodeParameters v = .ok ps ↔ ∃ entries, LaidOut v entries ∧
      (∀ e ∈ entries, ∃ p x, Binds e p x) ∧ ∀ p, LastBinds p entries (ps p)) ∧
    (∀ entries, decodeParameters (.mapping entries) =
      decodeParameters (.list (entries.map fun e => .mapping [e]))) ∧
    (∀ (before after : List Value) (a b : String × Value) (p q : Parameter),
      p.Names a.1 → q.Names b.1 → p ≠ q → ∀ ps,
      decodeParameters (.list (before ++ .mapping [a] :: .mapping [b] :: after)) = .ok ps ↔
        decodeParameters (.list (before ++ .mapping [b] :: .mapping [a] :: after)) = .ok ps) ∧
    ∀ files path documents, load files path = .ok documents →
      ∀ d ∈ documents, ∀ v, parametersOf? d = some v → Ascending v := by
  refine ⟨fun v ps => ?_, fun entries => (decodeParameters_singles entries).symm, ?_, ?_⟩
  · rw [decodeParameters_eq_ok_iff]
    exact exists_congr fun entries => and_congr_right fun _ => foldlM_bindEntry_eq_ok_iff
  · intro before after a b p q ha hb hne ps
    exact ⟨decodeParameters_exchange ha hb hne, decodeParameters_exchange hb ha hne.symm⟩
  · intro files path documents hload d hd v hv
    exact ascending_parametersOf? (load_ensures files path documents hload d hd) hv

def courseIds : Entries :=
  [(" Course-ID", .text "A"), ("COURSE_ID", .text "B"), ("course_id ", .text "C")]

def courseFile : FileTree :=
  FileTree.empty.write "quiz.yaml" (.text ("parameters:\n- COURSE_ID: B\n  Course-ID: A\n" ++
    "- term: Fall\nquestions: []\n"))

theorem exists_load_courseFile :
    ∃ d v, load courseFile "quiz.yaml" = .ok [d] ∧ parametersOf? d = some v := by
  have hshape : (load courseFile "quiz.yaml").map (List.map fun d => (parametersOf? d).isSome) =
      .ok [true] := by
    decide +kernel
  cases hload : load courseFile "quiz.yaml" with
  | error e =>
    rw [hload] at hshape
    cases hshape
  | ok documents =>
    rw [hload] at hshape
    obtain ⟨d, rest, rfl, hd, hrest⟩ := List.map_eq_cons_iff.mp (Except.ok.inj hshape)
    obtain rfl := List.map_eq_nil_iff.mp hrest
    obtain ⟨v, hv⟩ := Option.isSome_iff_exists.mp hd
    exact ⟨d, v, rfl, hv⟩

theorem parameters_bound_by_last_entry_courseIds :
    (∃ ps entries, decodeParameters (.list [.mapping courseIds, .mapping [("term", .text "Fall")],
        .mapping [("Title", .text "Quiz")]]) = .ok ps ∧
      decodeParameters (.list [.mapping courseIds, .mapping [("Title", .text "Quiz")],
        .mapping [("term", .text "Fall")]]) = .ok ps ∧
      LaidOut (.list [.mapping courseIds, .mapping [("term", .text "Fall")],
        .mapping [("Title", .text "Quiz")]]) entries ∧
      LastBinds .courseId entries (some (.text "C")) ∧ LastBinds .date entries none) ∧
    Parameter.term.Names "term" ∧ Parameter.title.Names "Title" ∧
    decodeParameters (.mapping courseIds) = decodeParameters (.list
      [.mapping [(" Course-ID", .text "A")], .mapping [("COURSE_ID", .text "B")],
        .mapping [("course_id ", .text "C")]]) ∧
    ∃ d v, load courseFile "quiz.yaml" = .ok [d] ∧ parametersOf? d = some v ∧ Ascending v := by
  obtain ⟨hlast, hsingles, hexchange, horder⟩ := parameters_bound_by_last_entry
  have hterm : Parameter.term.Names "term" := Parameter.ofName?_eq_some_iff.mp rfl
  have htitle : Parameter.title.Names "Title" := Parameter.ofName?_eq_some_iff.mp rfl
  obtain ⟨ps, hdecode, hid, hdate⟩ : ∃ ps, decodeParameters (.list [.mapping courseIds,
      .mapping [("term", .text "Fall")], .mapping [("Title", .text "Quiz")]]) = .ok ps ∧
      ps .courseId = some (.text "C") ∧ ps .date = none := ⟨_, rfl, rfl, rfl⟩
  obtain ⟨entries, hlaid, -, hbound⟩ := (hlast _ ps).mp hdecode
  have hswapped := (hexchange [.mapping courseIds] [] ("term", .text "Fall") ("Title", .text "Quiz")
    .term .title hterm htitle nofun ps).mp hdecode
  obtain ⟨d, v, hload, hv⟩ := exists_load_courseFile
  exact ⟨⟨ps, entries, hdecode, hswapped, hlaid, hid ▸ hbound .courseId, hdate ▸ hbound .date⟩,
    hterm, htitle, hsingles courseIds, d, v, hload, hv,
    horder courseFile "quiz.yaml" _ hload d List.mem_cons_self v hv⟩

end Specification

end ExamVariants
