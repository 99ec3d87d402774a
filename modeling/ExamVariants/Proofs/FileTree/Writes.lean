import ExamVariants.FileTree
import Mathlib.Data.List.Nodup

namespace ExamVariants

/-- Files to write one after another, each with its text. -/
abbrev Writes := List (String × String)

def Writes.places (ws : Writes) : List Path.Location := ws.map fun w => Path.locate w.1

/-- Where the place of a file tells by a key which item it belongs to, items with different keys
write to different places. -/
theorem nodup_places_flatMap {α κ : Type} {xs : List α} {files : α → Writes} {key : α → κ}
    (hkeys : (xs.map key).Nodup) (hnodup : ∀ x ∈ xs, (files x).places.Nodup)
    (hkey : ∀ x ∈ xs, ∀ y ∈ xs, ∀ f ∈ files x, ∀ g ∈ files y,
      Path.locate f.1 = Path.locate g.1 → key x = key y) :
    (Writes.places (xs.flatMap files)).Nodup := by
  have hpairs : xs.Pairwise fun x y => key x ≠ key y := List.pairwise_map.mp hkeys
  rw [Writes.places, List.map_flatMap, List.nodup_flatMap]
  refine ⟨hnodup, hpairs.imp_of_mem fun {x y} hx hy hne place hplace hplace' => ?_⟩
  obtain ⟨f, hf, rfl⟩ := List.mem_map.mp hplace
  obtain ⟨g, hg, hsame⟩ := List.mem_map.mp hplace'
  exact hne (hkey x hx y hy f hf g hg hsame.symm)

namespace FileTree

open ExamVariants.Path

def writeAll (t : FileTree) (ws : Writes) : FileTree :=
  ws.foldl (fun t w => t.write w.1 (.text w.2)) t

theorem writeAll_append (t : FileTree) (ws ws' : Writes) :
    t.writeAll (ws ++ ws') = (t.writeAll ws).writeAll ws' := List.foldl_append

theorem find?_writeAll (t : FileTree) (ws : Writes) (place : Location) :
    (t.writeAll ws).find? place =
      ((ws.reverse.find? fun w => locate w.1 == place).map fun w => .text w.2).or
        (t.find? place) := by
  induction ws generalizing t with
  | nil => rfl
  | cons w ws ih =>
    have hrest := ih (t.write w.1 (.text w.2))
    rw [find?_write] at hrest
    rw [writeAll, List.foldl_cons, ← writeAll, hrest, List.reverse_cons, List.find?_append]
    cases ws.reverse.find? fun w => locate w.1 == place with
    | some v => rfl
    | none =>
      by_cases hw : place = locate w.1
      · simp [hw]
      · simp [hw, Ne.symm hw]

theorem find?_writeAll_of_notMem (t : FileTree) {ws : Writes} {place : Location}
    (h : place ∉ ws.places) : (t.writeAll ws).find? place = t.find? place := by
  have hnone : (ws.reverse.find? fun w => locate w.1 == place) = none := by
    rw [List.find?_eq_none]
    intro w hw hplace
    exact h (List.mem_map.mpr ⟨w, List.mem_reverse.mp hw, by simpa using hplace⟩)
  rw [find?_writeAll, hnone]
  rfl

theorem find?_writeAll_congr (t u : FileTree) {ws : Writes} {place : Location}
    (h : place ∈ ws.places) : (t.writeAll ws).find? place = (u.writeAll ws).find? place := by
  obtain ⟨w, hw, hplace⟩ := List.mem_map.mp h
  have hsome : (ws.reverse.find? fun w => locate w.1 == place).isSome := by
    rw [List.find?_isSome]
    exact ⟨w, List.mem_reverse.mpr hw, by simpa using hplace⟩
  obtain ⟨v, hv⟩ := Option.isSome_iff_exists.mp hsome
  rw [find?_writeAll, find?_writeAll, hv]
  rfl

theorem find?_writeAll_of_mem (t : FileTree) {ws : Writes} (hws : ws.places.Nodup)
    {w : String × String} (h : w ∈ ws) : (t.writeAll ws).find? (locate w.1) = some (.text w.2) := by
  obtain ⟨before, after, rfl⟩ := List.append_of_mem h
  have hafter : locate w.1 ∉ Writes.places after := by
    rw [Writes.places, List.map_append, List.map_cons] at hws
    exact (List.nodup_cons.mp hws.of_append_right).1
  rw [← List.singleton_append, writeAll_append, writeAll_append, find?_writeAll_of_notMem _ hafter,
    writeAll, List.foldl_cons, List.foldl_nil, find?_write, if_pos rfl]

/-- The place lies directly in a directory named `PDF`, where the typesetter works. -/
def InPdf (place : Location) : Prop := place.dropLast.getLast? = some "PDF"

/-- Two trees agree: in all they hold, or, where the typesetter may run, in all files that lie
outside its directories. -/
structure Agree (typeset : Bool) (t u : FileTree) : Prop where
  find?_eq : ∀ place, ¬ InPdf place → t.find? place = u.find? place
  eq : typeset = false → t = u

namespace Agree

variable {typeset : Bool} {t u v : FileTree}

theorem refl (typeset : Bool) (t : FileTree) : Agree typeset t t := ⟨fun _ _ => rfl, fun _ => rfl⟩

theorem trans (h : Agree typeset t u) (h' : Agree typeset u v) : Agree typeset t v :=
  ⟨fun place hplace => (h.find?_eq place hplace).trans (h'.find?_eq place hplace),
    fun htypeset => (h.eq htypeset).trans (h'.eq htypeset)⟩

theorem writeAll (h : Agree typeset t u) (ws : Writes) :
    Agree typeset (t.writeAll ws) (u.writeAll ws) := by
  refine ⟨fun place hplace => ?_, fun htypeset => by rw [h.eq htypeset]⟩
  rw [find?_writeAll, find?_writeAll, h.find?_eq place hplace]

theorem append {ws ws' : Writes} (h : Agree typeset u (t.writeAll ws))
    (h' : Agree typeset v (u.writeAll ws')) : Agree typeset v (t.writeAll (ws ++ ws')) := by
  rw [writeAll_append]
  exact h'.trans (h.writeAll ws')

theorem of_typeset (h : ∀ place, ¬ InPdf place → t.find? place = u.find? place) :
    Agree true t u := ⟨h, nofun⟩

end Agree

theorem find?_remove (t : FileTree) (removed place : Location) :
    (t.remove removed).find? place = if place = removed then none else t.find? place := by
  rw [find?, find?, remove]
  induction t.files with
  | nil => simp
  | cons f fs ih =>
    by_cases hf : f.1 = removed
    · have hskip : place ≠ removed → (place == f.1) = false := by simp [hf]
      rw [List.filter_cons_of_neg (by simpa using hf), ih]
      split
      · rfl
      · next hplace => rw [List.lookup_cons, hskip hplace]
    · have hstay : place = removed → (place == f.1) = false := by
        rintro rfl
        simpa using Ne.symm hf
      rw [List.filter_cons_of_pos (by simpa using hf), List.lookup_cons, ih, List.lookup_cons]
      by_cases hplace : place = removed
      · simp only [hstay hplace, if_pos hplace]
      · simp only [if_neg hplace]

theorem find?_removeNames (t : FileTree) (directory : Location) (names : List String)
    (place : Location) :
    (names.foldl (fun t name => t.remove (directory ++ [name])) t).find? place =
      if place ∈ names.map fun name => directory ++ [name] then none else t.find? place := by
  induction names generalizing t with
  | nil => rfl
  | cons name names ih =>
    rw [List.foldl_cons, ih, find?_remove, List.map_cons]
    by_cases hplace : place = directory ++ [name]
    · simp [hplace]
    · simp [hplace]

theorem mem_namesIn {t : FileTree} {directory : Location} {name : String}
    (h : t.find? (directory ++ [name]) ≠ none) : name ∈ t.namesIn directory := by
  obtain ⟨c, hc⟩ := Option.ne_none_iff_exists'.mp h
  obtain ⟨before, after, hfiles, -⟩ := List.lookup_eq_some_iff.mp hc
  refine List.mem_filterMap.mpr ⟨(directory ++ [name], c), ?_, by simp⟩
  rw [hfiles]
  simp

end FileTree

end ExamVariants
