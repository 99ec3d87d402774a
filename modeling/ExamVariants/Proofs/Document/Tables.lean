import ExamVariants.Proofs.Document.KeyOrder
import ExamVariants.Specification.Load

namespace ExamVariants.Document

namespace Toml

inductive Item.Ascends : Item → Prop
  | value {v : Value} (h : Ascending v) : Ascends (.value v)
  | table (origin : Origin) {entries : Entries} (h : ∀ e ∈ entries, Ascends e.2) :
    Ascends (.table origin entries)
  | tables {earlier : List Value} {last : Entries} (hearlier : ∀ v ∈ earlier, Ascending v)
    (hlast : ∀ e ∈ last, Ascends e.2) : Ascends (.tables earlier last)

namespace Item

mutual

theorem ascending_toValue : ∀ i : Item, i.Ascends → Ascending (toValue i)
  | .value v, .value h => h
  | .table origin entries, .table _ h => by
    rw [toValue]
    exact ascending_ofEntries (ascending_entryValues entries h)
  | .tables earlier last, .tables hearlier hlast => by
    rw [toValue]
    refine .list fun v hv => ?_
    rcases List.mem_append.mp hv with hv | hv
    · exact hearlier v (List.mem_reverse.mp hv)
    · obtain rfl := List.mem_singleton.mp hv
      exact ascending_ofEntries (ascending_entryValues last hlast)

theorem ascending_entryValues : ∀ es : Entries, (∀ e ∈ es, e.2.Ascends) →
    ∀ e ∈ entryValues es, Ascending e.2
  | [], _ => List.forall_mem_nil _
  | (k, i) :: es, h => by
    obtain ⟨hi, hes⟩ := List.forall_mem_cons.mp h
    rw [entryValues]
    exact List.forall_mem_cons.mpr ⟨ascending_toValue i hi, ascending_entryValues es hes⟩

end

end Item

namespace Entries

abbrev Ascends (es : Entries) : Prop := ∀ e ∈ es, e.2.Ascends

variable {es : Entries} {key : String} {path : List String} {origin : Origin}

theorem ascends_put {i : Item} (hi : i.Ascends) (h : es.Ascends) : (es.put key i).Ascends := by
  induction es with
  | nil => exact List.forall_mem_singleton.mpr hi
  | cons e es ih =>
    obtain ⟨k, j⟩ := e
    obtain ⟨hj, hes⟩ := List.forall_mem_cons.mp h
    rw [put]
    split
    · exact List.forall_mem_cons.mpr ⟨hi, hes⟩
    · exact List.forall_mem_cons.mpr ⟨hj, ih hes⟩

theorem ascends_snoc {i : Item} (hi : i.Ascends) (h : es.Ascends) :
    Ascends (es ++ [(key, i)]) :=
  List.forall_mem_append.mpr ⟨h, List.forall_mem_singleton.mpr hi⟩

theorem ascends_of_lookup {i : Item} (h : es.Ascends) (hlookup : es.lookup key = some i) :
    i.Ascends := by
  obtain ⟨before, after, rfl, -⟩ := List.lookup_eq_some_iff.mp hlookup
  exact h (key, i) (by simp)

theorem within_ensures {dotted : Bool} {change : Origin → Entries → Except Problem Entries}
    (hchange : ∀ origin es, Ascends es → Ensures Ascends (change origin es)) (h : es.Ascends) :
    Ensures Ascends (within dotted change path origin es) := by
  induction path generalizing origin es with
  | nil => exact hchange origin es h
  | cons k ks ih =>
    rw [within]
    split
    · exact (ih (List.forall_mem_nil _)).bind fun inner hinner =>
        .ok (ascends_snoc (.table _ hinner) h)
    -- What was there holds only ascending values; the changed table takes its place.
    · next hlookup =>
      obtain ⟨⟩ := ascends_of_lookup h hlookup
      next hinner =>
      split
      · exact .error
      · exact (ih hinner).bind fun inner hinner => .ok (ascends_put (.table _ hinner) h)
    · next hlookup =>
      obtain ⟨⟩ := ascends_of_lookup h hlookup
      next hearlier hlast =>
      exact (ih hlast).bind fun last hlast => .ok (ascends_put (.tables hearlier hlast) h)
    · exact .error

theorem bind_ensures {v : Value} (hv : Ascending v) (h : es.Ascends) :
    Ensures Ascends (es.bind path key v origin) := by
  refine within_ensures (fun origin es hes => ?_) h
  split
  · exact .error
  · exact .ok (ascends_snoc (.value hv) hes)

theorem openTable_ensures (h : es.Ascends) : Ensures Ascends (es.openTable path key) := by
  refine within_ensures (fun origin es hes => ?_) h
  split
  · exact .ok (ascends_snoc (.table _ (List.forall_mem_nil _)) hes)
  · next hlookup =>
    obtain ⟨⟩ := ascends_of_lookup hes hlookup
    next hinner => exact .ok (ascends_put (.table _ hinner) hes)
  · exact .error

theorem openNext_ensures (h : es.Ascends) : Ensures Ascends (es.openNext path key) := by
  refine within_ensures (fun origin es hes => ?_) h
  split
  · exact .ok (ascends_snoc (.tables (List.forall_mem_nil _) (List.forall_mem_nil _)) hes)
  · next earlier last hlookup =>
    obtain ⟨⟩ := ascends_of_lookup hes hlookup
    next hearlier hlast =>
    have hvalue := ascending_ofEntries (Item.ascending_entryValues last hlast)
    have hopened : ∀ v ∈ .ofEntries (Item.entryValues last) :: earlier, Ascending v :=
      List.forall_mem_cons.mpr ⟨hvalue, hearlier⟩
    exact .ok (ascends_put (.tables hopened (List.forall_mem_nil _)) hes)
  · exact .error

theorem ascending_toValue (h : es.Ascends) : Ascending es.toValue :=
  ascending_ofEntries (Item.ascending_entryValues es h)

end Entries

theorem integerValue_ensures (i : Int) : Ensures Ascending (integerValue i) := by
  rw [integerValue]
  split
  · exact .ok (.number _)
  · exact .error

theorem number_ensures (cs : List Char) : Ensures Ascending (number cs) := by
  rw [number.eq_def]
  dsimp only
  split
  -- The three bases that are written out.
  iterate 3
    · split
      · exact integerValue_ensures _
      · exact .error
  · split
    · exact .ok .null
    · split
      · exact integerValue_ensures _
      · split
        · exact .ok (.number _)
        · exact .error
      · exact .error

theorem ascending_dateValue (text : List Char) : Ascending (dateValue text) :=
  .mapping (List.pairwise_singleton _ _) (List.forall_mem_singleton.mpr (.text _))

theorem bareScalar_ensures (cs : List Char) : EnsuresAscending (bareScalar cs) := by
  rw [bareScalar]
  split
  · exact .error
  · split
    · exact .ok (.bool true)
    · split
      · exact .ok (.bool false)
      · split
        · split
          · exact .ok (ascending_dateValue _)
          · exact .error
        · exact (number_ensures _).bind fun v hv => .ok hv

/-- The invariant of the readers: what they give is a tree with ascending keys, or its items or
entries. -/
structure Reads (fuel : Nat) : Prop where
  value : ∀ depth cs, EnsuresAscending (value depth fuel cs)
  items : ∀ depth cs, Ensures (fun r => ∀ v ∈ r.1, Ascending v) (items depth fuel cs)
  inlineEntries : ∀ depth es cs, es.Ascends →
    Ensures (fun r => r.1.Ascends) (inlineEntries depth fuel es cs)

variable {fuel : Nat} {cs : List Char}

theorem value_ensures (h : Reads fuel) (depth : Nat) :
    EnsuresAscending (value depth (fuel + 1) cs) := by
  rw [value.eq_def]
  dsimp only
  split
  · exact .after fun r => .ok (.text _)
  · split
    · exact .error
    · exact (h.items _ _).bind fun r hr => .ok (.list hr)
  · split
    · exact .error
    · exact (h.inlineEntries _ _ _ (List.forall_mem_nil _)).bind fun r hr =>
        .ok (Entries.ascending_toValue hr)
  · exact bareScalar_ensures _

theorem items_ensures (h : Reads fuel) (depth : Nat) :
    Ensures (fun r => ∀ v ∈ r.1, Ascending v) (items depth (fuel + 1) cs) := by
  rw [items]
  refine .after fun cs => ?_
  split
  · exact .ok (List.forall_mem_nil _)
  · refine (h.value depth cs).bind fun r hr => .after fun rest => ?_
    dsimp only
    split
    · exact (h.items depth _).bind fun s hs => .ok (List.forall_mem_cons.mpr ⟨hr, hs⟩)
    · exact .ok (List.forall_mem_singleton.mpr hr)
    · exact .error

theorem inlineEntries_ensures (h : Reads fuel) (depth : Nat) {es : Entries} (hes : es.Ascends) :
    Ensures (fun r => r.1.Ascends) (inlineEntries depth (fuel + 1) es cs) := by
  rw [inlineEntries]
  refine .after fun cs => ?_
  split
  · exact .ok hes
  · refine .after ?_
    rintro ⟨path, last, rest⟩
    dsimp only
    split
    · refine (h.value depth _).bind ?_
      rintro ⟨v, rest⟩ hv
      refine (Entries.bind_ensures hv hes).bind fun es hes => .after fun rest => ?_
      split
      · exact h.inlineEntries _ _ _ hes
      · exact .ok hes
      · exact .error
    · exact .error

theorem reads (fuel : Nat) : Reads fuel := by
  induction fuel with
  | zero =>
    constructor
    · intro depth cs
      rw [value]
      exact .error
    · intro depth cs
      rw [items]
      exact .error
    · intro depth es cs _
      rw [inlineEntries]
      exact .error
  | succ fuel ih =>
    exact ⟨fun depth _ => value_ensures ih depth, fun depth _ => items_ensures ih depth,
      fun depth _ _ => inlineEntries_ensures ih depth⟩

theorem header_ensures {t : Tables} (next : Bool) (h : t.root.Ascends) :
    Ensures (fun r => r.1.root.Ascends) (header t next cs) := by
  rw [header]
  refine .after ?_
  rintro ⟨path, last, rest⟩
  dsimp only
  split
  · split
    · exact (Entries.openNext_ensures h).bind fun root hroot => .ok hroot
    · exact (Entries.openTable_ensures h).bind fun root hroot => .ok hroot
  · exact .error

theorem entry_ensures {t : Tables} (h : t.root.Ascends) :
    Ensures (fun r => r.1.root.Ascends) (entry t cs) := by
  rw [entry]
  refine .after ?_
  rintro ⟨path, last, rest⟩
  dsimp only
  split
  · refine ((reads _).value _ _).bind ?_
    rintro ⟨v, rest⟩ hv
    refine (Entries.within_ensures (fun _ _ hes => Entries.bind_ensures hv hes) h).bind ?_
    exact fun root hroot => .ok hroot
  · exact .error

theorem lines_ensures (fuel : Nat) {t : Tables} (h : t.root.Ascends) (cs : List Char) :
    Ensures (fun t => t.root.Ascends) (lines fuel t cs) := by
  induction fuel generalizing t cs with
  | zero => exact .ok h
  | succ fuel ih =>
    rw [lines]
    refine .after fun cs => ?_
    split
    · exact .ok h
    · have hnext : ∀ r : Tables × List Char, r.1.root.Ascends →
          Ensures (fun t => t.root.Ascends) (endLine r.2 >>= lines fuel r.1) :=
        fun r hr => .after fun rest => ih hr rest
      dsimp only
      split
      · exact (header_ensures true h).bind hnext
      · exact (header_ensures false h).bind hnext
      · exact (entry_ensures h).bind hnext

theorem read_ensures (text : String) : Ensures Ascending (read text) := by
  refine (lines_ensures _ (List.forall_mem_nil _) _).bind fun t ht => ?_
  exact .ok (Entries.ascending_toValue ht)

end Toml

end ExamVariants.Document

namespace ExamVariants.Specification

open Document

theorem readTrees_ensures (format : FileFormat) (text : String) :
    Ensures (fun trees => ∀ v ∈ trees, Ascending v) (readTrees format text) := by
  cases format with
  | json =>
    refine Ensures.mapError (Ensures.map (Json.read_ensures text) fun v hv => ?_) _
    exact List.forall_mem_singleton.mpr hv
  | toml =>
    refine Ensures.mapError (Ensures.map (Toml.read_ensures text) fun v hv => ?_) _
    exact List.forall_mem_singleton.mpr hv
  | yaml => exact (Yaml.read_ensures text).mapError _

theorem ascending_of_find? {entries : Entries} {key : String} {v : Value}
    (h : Ascending (.mapping entries)) (hfind : Value.find? key entries = some v) :
    Ascending v := by
  obtain ⟨before, after, rfl, -⟩ := List.lookup_eq_some_iff.mp hfind
  cases h with
  | mapping hkeys hvalues => exact hvalues (key, v) (by simp)

theorem ascending_splitDocuments {tree : Value} (h : Ascending tree) :
    ∀ v ∈ splitDocuments tree, Ascending v := by
  rw [splitDocuments.eq_def]
  split
  · cases h with
    | list hitems => exact hitems
  · split
    · next hfind =>
      cases ascending_of_find? h hfind with
      | list hitems => exact hitems
    · exact List.forall_mem_singleton.mpr h
  · exact List.forall_mem_singleton.mpr h

theorem load_ensures (files : FileTree) (path : String) :
    Ensures (fun documents => ∀ v ∈ documents, Ascending v) (load files path) := by
  rw [load]
  split
  · exact .error
  · refine .after fun format => ?_
    split
    · exact .error
    · refine Ensures.bind ((readTrees_ensures format _).mapError _) fun trees htrees => ?_
      refine .ok fun v hv => ?_
      obtain ⟨tree, htree, hv⟩ := List.mem_flatMap.mp hv
      exact ascending_splitDocuments (htrees tree htree) v hv

end ExamVariants.Specification
