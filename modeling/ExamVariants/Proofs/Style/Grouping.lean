import ExamVariants.Proofs.Style.Leaves

namespace ExamVariants.StyleTable

def alone (t : StyleTable) (l : Leaf) : Except RenderError String := t.render (.ofLeaf l)

theorem renderLeaves_eq_map (t : StyleTable) (ls : List Leaf) :
    t.renderLeaves ls = String.join <$> ls.mapM t.alone := by
  induction ls with
  | nil => rfl
  | cons l ls ih =>
    rw [renderLeaves, ih, List.mapM_cons, alone, Segment.ofLeaf, render]
    cases t.renderLeaf l with
    | error err => rfl
    | ok first =>
      cases ls.mapM t.alone with
      | error err => rfl
      | ok outs => exact congrArg Except.ok String.join_cons.symm

theorem render_eq_map (t : StyleTable) (s : Segment) :
    t.render s = String.join <$> s.leaves.mapM t.alone := by
  rw [render_eq_renderLeaves, renderLeaves_eq_map]

theorem render_eq_ok_iff {t : StyleTable} {s : Segment} {out : String} :
    t.render s = .ok out ↔
      ∃ outs, List.Forall₂ (fun l out => t.alone l = .ok out) s.leaves outs ∧
        String.join outs = out := by
  simp only [render_eq_map, map_eq_ok_iff, mapM_eq_ok_iff]

theorem render_eq_error_iff {t : StyleTable} {s : Segment} {err : RenderError} :
    t.render s = .error err ↔ ∃ before l after, s.leaves = before ++ l :: after ∧
      (∀ l' ∈ before, ∃ out, t.alone l' = .ok out) ∧ t.alone l = .error err := by
  simp only [render_eq_map, map_eq_error_iff, mapM_eq_error_iff]

theorem exists_render_eq_ok_iff {t : StyleTable} {s : Segment} :
    (∃ out, t.render s = .ok out) ↔ ∀ l ∈ s.leaves, ∃ out, t.alone l = .ok out := by
  simp only [render_eq_map, map_eq_ok_iff, ← exists_mapM_eq_ok_iff]
  constructor
  · rintro ⟨_, outs, houts, -⟩
    exact ⟨outs, houts⟩
  · rintro ⟨outs, houts⟩
    exact ⟨_, outs, houts, rfl⟩

theorem exists_render_eq_error_iff {t : StyleTable} {s : Segment} :
    (∃ err, t.render s = .error err) ↔ ∃ l ∈ s.leaves, ∃ err, t.alone l = .error err := by
  simp only [exists_eq_error_iff, exists_render_eq_ok_iff, not_forall, exists_prop]

/-- The table takes all styles and changes no text, whatever the styles. -/
structure Transparent (t : StyleTable) : Prop where
  lineBreak : t.lineBreak = ""
  escape : ∀ style text, t.escape style text = .ok text
  wrap : ∀ style inner, t.wrap style inner = .ok inner
  check : ∀ styles, t.check styles = .ok ()

namespace Transparent

variable {t : StyleTable}

theorem foldlM_wrap (h : t.Transparent) (ss : List Style) (inner : String) :
    ss.foldlM (fun inner style => t.wrap style inner) inner = .ok inner := by
  induction ss generalizing inner with
  | nil => rfl
  | cons style ss ih =>
    rw [List.foldlM_cons, h.wrap]
    exact ih inner

theorem alone_eq (h : t.Transparent) (l : Leaf) : t.alone l = .ok l.text := by
  simp only [alone, Segment.ofLeaf, render, renderLeaf, bind_eq_ok_iff, pure_eq_ok_iff]
  refine ⟨(), h.check _, _, h.escape _ _, _, h.foldlM_wrap _ _, ?_⟩
  rw [h.lineBreak, String.empty_append, ite_self]

theorem render_eq (h : t.Transparent) (s : Segment) :
    t.render s = .ok (String.join (s.leaves.map Leaf.text)) := by
  refine render_eq_ok_iff.mpr ⟨_, ?_, rfl⟩
  rw [List.forall₂_map_right_iff, List.forall₂_same]
  exact fun l _ => h.alone_eq l

end Transparent

/-- A segment renders to what its leaves render to on their own, joined in order. It fails iff some
leaf fails, and the first one that does gives the error. So the grouping of the leaves does not
count, and a table that changes no text gives their texts. -/
theorem segments_render_as_their_leaves (t : StyleTable) (s : Segment) :
    (∀ out, t.render s = .ok out ↔
      ∃ outs, List.Forall₂ (fun l out => t.alone l = .ok out) s.leaves outs ∧
        String.join outs = out) ∧
    ((∃ err, t.render s = .error err) ↔ ∃ l ∈ s.leaves, ∃ err, t.alone l = .error err) ∧
    (∀ err, t.render s = .error err ↔ ∃ before l after, s.leaves = before ++ l :: after ∧
      (∀ l' ∈ before, ∃ out, t.alone l' = .ok out) ∧ t.alone l = .error err) ∧
    (∀ s', s'.leaves = s.leaves → t.render s' = t.render s) ∧
    (t.Transparent → t.render s = .ok (String.join (s.leaves.map Leaf.text))) := by
  refine ⟨fun _ => render_eq_ok_iff, exists_render_eq_error_iff, fun _ => render_eq_error_iff, ?_,
    fun h => h.render_eq s⟩
  intro s' hleaves
  rw [render_eq_map, render_eq_map, hleaves]

def unchanged : StyleTable where
  lineBreak := ""
  escape _ text := .ok text
  wrap _ inner := .ok inner
  check _ := .ok ()

/-- A text in three parts, of which the last is a compound, and its leaves in a row. -/
theorem segments_render_as_their_leaves_grouped :
    let grouped : Segment := .compound [.plain "Is ", .simple "this" [.bold, .newLine],
      .compound [.plain " ok", .compound [.simple "?" [.code]]]]
    let flat : Segment := .compound [.plain "Is ", .simple "this" [.bold, .newLine], .plain " ok",
      .simple "?" [.code]]
    flat.leaves = grouped.leaves ∧ unchanged.render flat = unchanged.render grouped ∧
      unchanged.Transparent ∧ unchanged.render grouped = .ok "Is this ok?" := by
  intro grouped flat
  have htransparent : unchanged.Transparent :=
    ⟨rfl, fun _ _ => rfl, fun _ _ => rfl, fun _ => rfl⟩
  have hleaves : flat.leaves = grouped.leaves := rfl
  obtain ⟨-, -, -, hregroup, htexts⟩ := segments_render_as_their_leaves unchanged grouped
  exact ⟨hleaves, hregroup flat hleaves, htransparent, htexts htransparent⟩

end ExamVariants.StyleTable
