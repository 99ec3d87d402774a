import Mathlib.Data.List.Forall2

namespace ExamVariants

variable {ε α β γ δ : Type}

theorem bind_eq_ok_iff {x : Except ε α} {f : α → Except ε β} {b : β} :
    x >>= f = .ok b ↔ ∃ a, x = .ok a ∧ f a = .ok b := by
  cases x <;> simp [bind, Except.bind]

theorem pure_eq_ok_iff {a b : α} : (pure a : Except ε α) = .ok b ↔ a = b := by
  simp [pure, Except.pure]

theorem bind_eq_error_iff {x : Except ε α} {f : α → Except ε β} {e : ε} :
    x >>= f = .error e ↔ x = .error e ∨ ∃ a, x = .ok a ∧ f a = .error e := by
  cases x <;> simp [bind, Except.bind]

theorem exists_eq_error_iff {x : Except ε α} : (∃ e, x = .error e) ↔ ¬ ∃ a, x = .ok a := by
  cases x <;> simp

theorem map_eq_ok_iff {x : Except ε α} {f : α → β} {b : β} :
    f <$> x = .ok b ↔ ∃ a, x = .ok a ∧ f a = b := by
  cases x <;> simp [Functor.map, Except.map]

theorem map_eq_error_iff {x : Except ε α} {f : α → β} {e : ε} :
    f <$> x = .error e ↔ x = .error e := by
  cases x <;> simp [Functor.map, Except.map]

theorem mapError_eq_ok_iff {x : Except ε α} {f : ε → δ} {a : α} :
    x.mapError f = .ok a ↔ x = .ok a := by
  cases x <;> simp [Except.mapError]

theorem mapError_eq_error_iff {x : Except ε α} {f : ε → δ} {d : δ} :
    x.mapError f = .error d ↔ ∃ e, x = .error e ∧ f e = d := by
  cases x <;> simp [Except.mapError]

theorem mapM_eq_ok_iff {f : α → Except ε β} {xs : List α} {ys : List β} :
    xs.mapM f = .ok ys ↔ List.Forall₂ (fun x y => f x = .ok y) xs ys := by
  induction xs generalizing ys with
  | nil => cases ys <;> simp [pure_eq_ok_iff]
  | cons x xs ih =>
    simp only [List.mapM_cons, bind_eq_ok_iff, pure_eq_ok_iff, ih]
    constructor
    · rintro ⟨y, hy, ys, hys, rfl⟩
      exact .cons hy hys
    · intro h
      cases h with
      | cons hy hys => exact ⟨_, hy, _, hys, rfl⟩

theorem exists_mapM_eq_ok_iff {f : α → Except ε β} {xs : List α} :
    (∃ ys, xs.mapM f = .ok ys) ↔ ∀ x ∈ xs, ∃ y, f x = .ok y := by
  simp only [mapM_eq_ok_iff]
  induction xs with
  | nil => simp
  | cons x xs ih =>
    rw [List.forall_mem_cons, ← ih]
    constructor
    · rintro ⟨_, hys⟩
      cases hys with
      | cons hy hys => exact ⟨⟨_, hy⟩, _, hys⟩
    · rintro ⟨⟨y, hy⟩, ys, hys⟩
      exact ⟨y :: ys, .cons hy hys⟩

theorem mapM_eq_error_iff {f : α → Except ε β} {xs : List α} {e : ε} :
    xs.mapM f = .error e ↔ ∃ before x after, xs = before ++ x :: after ∧
      (∀ y ∈ before, ∃ b, f y = .ok b) ∧ f x = .error e := by
  induction xs with
  | nil => simp [pure, Except.pure]
  | cons z zs ih =>
    simp only [List.mapM_cons, bind_eq_error_iff, ih]
    constructor
    · rintro (hz | ⟨b, hb, ⟨before, x, after, rfl, hbefore, hx⟩ | ⟨_, -, hpure⟩⟩)
      · exact ⟨[], z, zs, rfl, by simp, hz⟩
      · exact ⟨z :: before, x, after, rfl, by simpa using ⟨⟨b, hb⟩, hbefore⟩, hx⟩
      · cases hpure
    · rintro ⟨before, x, after, hxs, hbefore, hx⟩
      cases before with
      | nil =>
        obtain ⟨rfl, rfl⟩ := List.cons.inj hxs
        exact .inl hx
      | cons y before =>
        obtain ⟨rfl, rfl⟩ := List.cons.inj hxs
        obtain ⟨b, hb⟩ := hbefore z List.mem_cons_self
        exact .inr ⟨b, hb, .inl
          ⟨before, x, after, rfl, fun y hy => hbefore y (List.mem_cons_of_mem z hy), hx⟩⟩

theorem forM_eq_ok_iff {f : α → Except ε Unit} {xs : List α} :
    forM xs f = .ok () ↔ ∀ x ∈ xs, f x = .ok () := by
  induction xs with
  | nil => simp [pure, Except.pure]
  | cons x xs ih =>
    simp only [List.forM_cons, bind_eq_ok_iff, ih, List.forall_mem_cons]
    exact ⟨fun ⟨(), h⟩ => h, fun h => ⟨(), h⟩⟩

theorem forM_append_cons_of_error {f : α → Except ε Unit} {before after : List α} {x : α} {e : ε}
    (hbefore : ∀ y ∈ before, f y = .ok ()) (hx : f x = .error e) :
    forM (before ++ x :: after) f = .error e := by
  rw [List.forM_append, forM_eq_ok_iff.mpr hbefore, List.forM_cons, hx]
  rfl

/-- Every result of the chain has the property. -/
def Ensures (P : α → Prop) (x : Except ε α) : Prop :=
  ∀ a, x = .ok a → P a

namespace Ensures

variable {P : α → Prop} {Q : β → Prop} {x : Except ε α}

theorem ok {a : α} (h : P a) : Ensures P (.ok a : Except ε α) := by
  rintro _ ⟨⟩
  exact h

theorem error {e : ε} : Ensures P (.error e) := nofun

theorem any : Ensures (fun _ => True) x := fun _ _ => trivial

theorem bind {f : α → Except ε β} (h : Ensures P x) (hnext : ∀ a, P a → Ensures Q (f a)) :
    Ensures Q (x >>= f) := by
  intro b hb
  obtain ⟨a, ha, hb⟩ := bind_eq_ok_iff.mp hb
  exact hnext a (h a ha) b hb

theorem after {f : α → Except ε β} (hnext : ∀ a, Ensures Q (f a)) : Ensures Q (x >>= f) :=
  any.bind fun a _ => hnext a

theorem map {f : α → β} (h : Ensures P x) (hf : ∀ a, P a → Q (f a)) : Ensures Q (f <$> x) := by
  intro b hb
  obtain ⟨a, ha, rfl⟩ := map_eq_ok_iff.mp hb
  exact hf a (h a ha)

theorem mapError (h : Ensures P x) (f : ε → δ) : Ensures P (x.mapError f) :=
  fun a ha => h a (mapError_eq_ok_iff.mp ha)

theorem mapM {f : α → Except ε β} {xs : List α} (h : ∀ a ∈ xs, Ensures Q (f a)) :
    Ensures (fun ys => ∀ b ∈ ys, Q b) (xs.mapM f) := by
  induction xs with
  | nil => exact ok (List.forall_mem_nil Q)
  | cons a xs ih =>
    obtain ⟨ha, hxs⟩ := List.forall_mem_cons.mp h
    rw [List.mapM_cons]
    exact ha.bind fun b hb => (ih hxs).bind fun ys hys => ok (List.forall_mem_cons.mpr ⟨hb, hys⟩)

end Ensures

/-- Where the second chain gives a result, so does the first, and the two results are related. -/
def Follows (R : α → β → Prop) (x : Except ε α) (y : Except ε β) : Prop :=
  ∀ b, y = .ok b → ∃ a, x = .ok a ∧ R a b

namespace Follows

variable {R : α → β → Prop} {S : γ → δ → Prop}

theorem ok {a : α} {b : β} (h : R a b) : Follows R (.ok a : Except ε α) (.ok b) := by
  intro b' hb'
  obtain rfl := Except.ok.inj hb'
  exact ⟨a, rfl, h⟩

theorem bind {x : Except ε α} {y : Except ε β} {f : α → Except ε γ} {g : β → Except ε δ}
    (h : Follows R x y) (hnext : ∀ a b, R a b → Follows S (f a) (g b)) :
    Follows S (x >>= f) (y >>= g) := by
  intro d hd
  obtain ⟨b, hb, hd⟩ := bind_eq_ok_iff.mp hd
  obtain ⟨a, ha, hab⟩ := h b hb
  obtain ⟨c, hc, hcd⟩ := hnext a b hab d hd
  exact ⟨c, bind_eq_ok_iff.mpr ⟨a, ha, hc⟩, hcd⟩

theorem after {x : Except ε α} {f : α → Except ε γ} {g : α → Except ε δ}
    (hnext : ∀ a, Follows S (f a) (g a)) : Follows S (x >>= f) (x >>= g) := by
  have hstep : Follows Eq x x := fun a ha => ⟨a, ha, rfl⟩
  apply hstep.bind
  rintro a _ rfl
  exact hnext a

end Follows

/-- Both chains give the same result, or errors that are related. -/
inductive Alike (E : ε → ε → Prop) : Except ε α → Except ε α → Prop
  | ok (a : α) : Alike E (.ok a) (.ok a)
  | error {e e' : ε} (h : E e e') : Alike E (.error e) (.error e')

namespace Alike

variable {E : ε → ε → Prop} {x y : Except ε α}

theorem bind {f g : α → Except ε β} (h : Alike E x y) (hnext : ∀ a, Alike E (f a) (g a)) :
    Alike E (x >>= f) (y >>= g) := by
  cases h with
  | ok a => exact hnext a
  | error h => exact .error h

theorem map (h : Alike E x y) (f : α → β) :
    Alike E (x >>= fun a => pure (f a)) (y >>= fun a => pure (f a)) :=
  h.bind fun a => .ok (f a)

end Alike

end ExamVariants
