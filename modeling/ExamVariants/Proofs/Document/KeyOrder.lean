import Mathlib.Data.List.Basic
import ExamVariants.Document.Json
import ExamVariants.Document.Yaml
import ExamVariants.Proofs.Outcome

namespace ExamVariants.Document

/-- The keys of every mapping in the tree ascend. -/
inductive Ascending : Value → Prop
  | null : Ascending .null
  | bool (b : Bool) : Ascending (.bool b)
  | number (n : Number) : Ascending (.number n)
  | text (s : String) : Ascending (.text s)
  | list {items : List Value} (hitems : ∀ v ∈ items, Ascending v) : Ascending (.list items)
  | mapping {entries : List (String × Value)} (hkeys : entries.Pairwise fun d e => d.1 < e.1)
    (hvalues : ∀ e ∈ entries, Ascending e.2) : Ascending (.mapping entries)

namespace Value

variable {key : String} {v : Value} {entries : List (String × Value)}

theorem mem_of_mem_insertEntry {e : String × Value} (h : e ∈ insertEntry key v entries) :
    e = (key, v) ∨ e ∈ entries := by
  induction entries with
  | nil => exact .inl (List.mem_singleton.mp h)
  | cons entry entries ih => grind [insertEntry]

theorem mem_keys_insertEntry {k : String} :
    k ∈ (insertEntry key v entries).map Prod.fst ↔ k = key ∨ k ∈ entries.map Prod.fst := by
  induction entries with
  | nil => simp [insertEntry]
  | cons entry entries ih => grind [insertEntry]

theorem pairwise_insertEntry (h : entries.Pairwise fun d e => d.1 < e.1) :
    (insertEntry key v entries).Pairwise fun d e => d.1 < e.1 := by
  induction entries with
  | nil => exact List.pairwise_singleton _ _
  | cons entry entries ih =>
    obtain ⟨k, w⟩ := entry
    obtain ⟨hhead, hrest⟩ := List.pairwise_cons.mp h
    rw [insertEntry]
    split
    · next heq => exact List.pairwise_cons.mpr ⟨heq ▸ hhead, hrest⟩
    · next hne =>
      split
      · next hlt =>
        refine List.pairwise_cons.mpr ⟨?_, h⟩
        rw [List.forall_mem_cons]
        exact ⟨hlt, fun e he => String.lt_trans hlt (hhead e he)⟩
      · next hnot =>
        refine List.pairwise_cons.mpr ⟨fun e he => ?_, ih hrest⟩
        rcases mem_of_mem_insertEntry he with rfl | he
        · apply String.not_le.mp
          intro hle
          exact hne (String.le_antisymm hle (String.not_lt.mp hnot))
        · exact hhead e he

end Value

theorem ascending_insertEntry {key : String} {v : Value} {entries : List (String × Value)}
    (hv : Ascending v) (h : Ascending (.mapping entries)) :
    Ascending (.mapping (Value.insertEntry key v entries)) := by
  cases h with
  | mapping hkeys hvalues =>
    refine .mapping (Value.pairwise_insertEntry hkeys) fun e he => ?_
    rcases Value.mem_of_mem_insertEntry he with rfl | he
    · exact hv
    · exact hvalues e he

theorem ascending_ofEntries {written : List (String × Value)}
    (h : ∀ e ∈ written, Ascending e.2) : Ascending (.ofEntries written) := by
  suffices hfold : ∀ sorted : List (String × Value), Ascending (.mapping sorted) →
      Ascending (.mapping (written.foldl (fun sorted e => Value.insertEntry e.1 e.2 sorted) sorted))
    from hfold [] (.mapping .nil (List.forall_mem_nil _))
  induction written with
  | nil => exact fun sorted hsorted => hsorted
  | cons entry written ih =>
    obtain ⟨hentry, hwritten⟩ := List.forall_mem_cons.mp h
    intro sorted hsorted
    exact ih hwritten _ (ascending_insertEntry hentry hsorted)

abbrev EnsuresAscending {ε ρ : Type} (x : Except ε (Value × ρ)) : Prop :=
  Ensures (fun r => Ascending r.1) x

namespace Json

theorem literal_ensures {word cs : List Char} {v : Value} (h : Ascending v) :
    EnsuresAscending (literal word v cs) := by
  induction word generalizing cs with
  | nil => exact .ok h
  | cons w ws ih =>
    cases cs with
    | nil => exact .error
    | cons c cs =>
      rw [literal]
      split
      · exact ih
      · exact .error

theorem unexpectedAt_ensures {cs : List Char} :
    EnsuresAscending (unexpectedAt cs : Except Error (Value × List Char)) := by
  cases cs <;> exact .error

/-- The invariant of the readers: what they give is a tree with ascending keys, if all that they
have taken before is so. -/
structure Reads (fuel : Nat) : Prop where
  value : ∀ depth cs, EnsuresAscending (value fuel depth cs)
  items : ∀ depth taken cs, (∀ v ∈ taken, Ascending v) →
    EnsuresAscending (items fuel depth taken cs)
  entries : ∀ depth taken cs, (∀ e ∈ taken, Ascending e.2) →
    EnsuresAscending (entries fuel depth taken cs)

variable {fuel : Nat} {cs : List Char}

theorem value_ensures (h : Reads fuel) (depth : Nat) :
    EnsuresAscending (value (fuel + 1) depth cs) := by
  -- One case for each character that a value can begin with.
  rw [value.eq_def]
  dsimp only
  split
  · exact .error
  · exact Ensures.any.map fun r _ => .text r.1
  · exact literal_ensures (.bool true)
  · exact literal_ensures (.bool false)
  · exact literal_ensures .null
  · split
    · exact .error
    · split
      · exact .ok (.list (List.forall_mem_nil _))
      · exact h.items _ _ _ (List.forall_mem_nil _)
  · split
    · exact .error
    · split
      · exact .ok (.mapping .nil (List.forall_mem_nil _))
      · exact h.entries _ _ _ (List.forall_mem_nil _)
  · split
    · exact Ensures.any.map fun r _ => .number r.1
    · exact .error

theorem items_ensures (h : Reads fuel) (depth : Nat) {taken : List Value}
    (htaken : ∀ v ∈ taken, Ascending v) : EnsuresAscending (items (fuel + 1) depth taken cs) := by
  rw [items]
  refine (h.value depth cs).bind ?_
  rintro ⟨v, rest⟩ hv
  have hall := List.forall_mem_cons.mpr ⟨hv, htaken⟩
  dsimp only
  split
  · exact h.items _ _ _ hall
  · exact .ok (.list fun v hv => hall v (List.mem_reverse.mp hv))
  · exact unexpectedAt_ensures

theorem entries_ensures (h : Reads fuel) (depth : Nat) {taken : List (String × Value)}
    (htaken : ∀ e ∈ taken, Ascending e.2) :
    EnsuresAscending (entries (fuel + 1) depth taken cs) := by
  rw [entries]
  split
  · refine .after ?_
    rintro ⟨key, rest⟩
    dsimp only
    split
    · refine (h.value depth _).bind ?_
      rintro ⟨v, rest⟩ hv
      have hall : ∀ e ∈ (key, v) :: taken, Ascending e.2 :=
        List.forall_mem_cons.mpr ⟨hv, htaken⟩
      dsimp only
      split
      · exact h.entries _ _ _ hall
      · exact .ok (ascending_ofEntries fun e he => hall e (List.mem_reverse.mp he))
      · exact unexpectedAt_ensures
    · exact unexpectedAt_ensures
  · exact unexpectedAt_ensures

theorem reads (fuel : Nat) : Reads fuel := by
  induction fuel with
  | zero =>
    constructor
    · intro depth cs
      rw [value]
      exact .error
    · intro depth taken cs _
      rw [items]
      exact .error
    · intro depth taken cs _
      rw [entries]
      exact .error
  | succ fuel ih =>
    exact ⟨fun depth _ => value_ensures ih depth, fun depth _ _ => items_ensures ih depth,
      fun depth _ _ => entries_ensures ih depth⟩

theorem read_ensures (text : String) : Ensures Ascending (read text) := by
  rw [read, readNested]
  refine ((reads _).value _ _).bind ?_
  rintro ⟨v, rest⟩ hv
  dsimp only
  split
  · exact .ok hv
  · exact .error

end Json

namespace Yaml

theorem integerValue?_ensures {cs : List Char} {x : Except Problem Value}
    (h : integerValue? cs = some x) : Ensures Ascending x := by
  rw [integerValue?] at h
  split at h
  · split at h
    · obtain rfl := Option.some.inj h
      exact .ok (.number _)
    · split at h
      · obtain rfl := Option.some.inj h
        exact .error
      · cases h
  · cases h

theorem ascending_real? {cs : List Char} {v : Value} (h : real? cs = some v) : Ascending v := by
  rw [real?] at h
  split at h
  · obtain rfl := Option.some.inj h
    exact .null
  · obtain ⟨x, -, rfl⟩ := Option.map_eq_some_iff.mp h
    exact .number _

theorem plainValue_ensures {cs : List Char} : Ensures Ascending (plainValue cs) := by
  rw [plainValue]
  split
  · exact .ok .null
  · split
    · exact .ok (.bool _)
    · next h => exact integerValue?_ensures h
    · split
      · exact .ok (.text _)
      · cases h : real? cs with
        | none => exact .ok (.text _)
        | some v => exact .ok (ascending_real? h)

theorem taggedValue?_ensures {cs : List Char} {t : ScalarTag} {x : Except Problem Value}
    (h : taggedValue? cs t = some x) : Ensures Ascending x := by
  cases t with
  | null =>
    rw [taggedValue?] at h
    split at h
    · obtain rfl := Option.some.inj h
      exact .ok .null
    · cases h
  | bool =>
    obtain ⟨b, -, rfl⟩ := Option.map_eq_some_iff.mp h
    exact .ok (.bool b)
  | int => exact integerValue?_ensures h
  | float =>
    obtain ⟨v, hv, rfl⟩ := Option.map_eq_some_iff.mp h
    exact .ok (ascending_real? hv)

theorem scalarValue_ensures {tag : Option Tag} {plain : Bool} {cs : List Char} :
    Ensures Ascending (scalarValue tag plain cs) := by
  rw [scalarValue.eq_def]
  refine .after fun _ => ?_
  split
  · split
    · exact plainValue_ensures
    · exact .ok (.text _)
  · split
    · next t _ =>
      cases h : taggedValue? cs t with
      | none => exact .error
      | some x => exact taggedValue?_ensures h
    · exact .ok (.text _)

namespace Node

-- The number of aliases that may still be followed is carried along; it decides on failure only.
mutual

theorem resolve_ensures (depth : Nat) : ∀ (n : Node) (aliases : Nat),
    EnsuresAscending (resolve depth n aliases)
  | .scalar tag plain text, aliases => by
    rw [resolve.eq_def]
    exact scalarValue_ensures.bind fun v hv => .ok hv
  | .list tag items, aliases => by
    rw [resolve.eq_def]
    refine .after fun r => ?_
    dsimp only
    cases depth with
    | zero => exact .error
    | succ depth =>
      exact (resolveAll_ensures depth items r.2).bind fun s hs => .ok (.list hs)
  | .mapping tag entries, aliases => by
    rw [resolve.eq_def]
    refine .after fun r => ?_
    dsimp only
    cases depth with
    | zero => exact .error
    | succ depth =>
      exact (resolveEntries_ensures depth entries r.2).bind fun s hs => .ok (ascending_ofEntries hs)
  | .shared n, aliases => by
    rw [resolve.eq_def]
    exact .after fun r => resolve_ensures depth n r.2

theorem resolveAll_ensures (depth : Nat) : ∀ (ns : List Node) (aliases : Nat),
    Ensures (fun r => ∀ v ∈ r.1, Ascending v) (resolveAll depth ns aliases)
  | [], _ => .ok (List.forall_mem_nil _)
  | n :: ns, aliases => by
    rw [resolveAll]
    refine (resolve_ensures depth n aliases).bind fun r hr => ?_
    exact (resolveAll_ensures depth ns r.2).bind fun s hs => .ok (List.forall_mem_cons.mpr ⟨hr, hs⟩)

theorem resolveEntries_ensures (depth : Nat) : ∀ (es : List (Node × Node)) (aliases : Nat),
    Ensures (fun r => ∀ e ∈ r.1, Ascending e.2) (resolveEntries depth es aliases)
  | [], _ => .ok (List.forall_mem_nil _)
  | (k, v) :: es, aliases => by
    rw [resolveEntries]
    refine .after fun key => ?_
    refine (resolve_ensures depth v _).bind fun r hr => ?_
    exact (resolveEntries_ensures depth es r.2).bind fun s hs =>
      .ok (List.forall_mem_cons.mpr ⟨hr, hs⟩)

end

theorem toValue_ensures (n : Node) : Ensures Ascending (toValue n) := by
  rw [toValue]
  exact (resolve_ensures maxDepth n _).map fun _ hr => hr

end Node

theorem read_ensures (text : String) : Ensures (fun vs => ∀ v ∈ vs, Ascending v) (read text) := by
  refine .after fun ts => .after fun roots => ?_
  refine (Ensures.mapM fun n _ => Node.toValue_ensures n).bind fun vs hvs => ?_
  exact .ok fun v hv => hvs v (List.mem_filter.mp hv).1

end Yaml

end ExamVariants.Document
