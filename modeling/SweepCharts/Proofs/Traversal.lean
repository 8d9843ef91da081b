import Mathlib.Data.List.Forall2

set_option autoImplicit false

/-! # Steps that may fail, one for each entry of a list

Steps and results stand side by side in two lists.

* `exists_forall₂`, `forall₂_with_mem`, `exists_of_forall₂`: what every entry has beside it.
* `mapM_eq_ok_iff`: such steps succeed with the results of all of them.
* `mapM_eq_error_iff`: they fail as the first one that fails.
* `mapM_eq_ok_of_forall₂`: steps that succeed together have one list of results.
* `mapM_eq_of_forall₂`: steps that agree one by one have one outcome.
-/

namespace SweepCharts

variable {α β ε : Type} {f : α → Except ε β}

theorem exists_forall₂ {R : α → β → Prop} {xs : List α} (h : ∀ x ∈ xs, ∃ y, R x y) :
    ∃ ys, List.Forall₂ R xs ys := by
  induction xs with
  | nil => exact ⟨[], .nil⟩
  | cons x xs ih =>
    obtain ⟨y, hy⟩ := h x (.head _)
    obtain ⟨ys, hys⟩ := ih fun z hz => h z (.tail _ hz)
    exact ⟨y :: ys, .cons hy hys⟩

theorem forall₂_with_mem {R : α → β → Prop} {xs : List α} {ys : List β}
    (h : List.Forall₂ R xs ys) : List.Forall₂ (fun x y => x ∈ xs ∧ R x y) xs ys :=
  (List.forall₂_and_left _ _).2 ⟨fun _ hx => hx, h⟩

theorem exists_of_forall₂ {R : α → β → Prop} {xs : List α} {ys : List β}
    (h : List.Forall₂ R xs ys) : ∀ x ∈ xs, ∃ y ∈ ys, R x y := by
  induction h with
  | nil => exact List.forall_mem_nil _
  | cons hxy _ ih =>
    intro z hz
    rcases List.mem_cons.1 hz with rfl | hz
    · exact ⟨_, .head _, hxy⟩
    · obtain ⟨y, hy, hzy⟩ := ih z hz
      exact ⟨y, .tail _ hy, hzy⟩

theorem mapM_cons_of_ok {x : α} {y : β} (h : f x = .ok y) (xs : List α) :
    (x :: xs).mapM f = (xs.mapM f).map (y :: ·) := by
  rw [List.mapM_cons, h]
  cases xs.mapM f <;> rfl

theorem mapM_cons_of_error {x : α} {e : ε} (h : f x = .error e) (xs : List α) :
    (x :: xs).mapM f = .error e := by
  rw [List.mapM_cons, h]
  rfl

theorem map_eq_ok {γ : Type} {g : β → γ} {r : Except ε β} {c : γ} :
    r.map g = .ok c ↔ ∃ b, r = .ok b ∧ c = g b := by
  cases r with
  | error e => simp [Except.map]
  | ok b => simp [Except.map, eq_comm]

theorem map_eq_error {γ : Type} {g : β → γ} {r : Except ε β} {e : ε} :
    r.map g = .error e ↔ r = .error e := by
  cases r <;> simp [Except.map]

theorem mapError_eq_ok {δ : Type} {g : ε → δ} {r : Except ε β} {b : β} :
    r.mapError g = .ok b ↔ r = .ok b := by
  cases r <;> simp [Except.mapError]

theorem mapError_eq_error {δ : Type} {g : ε → δ} {r : Except ε β} {d : δ} :
    r.mapError g = .error d ↔ ∃ e, r = .error e ∧ d = g e := by
  cases r with
  | error e => simp [Except.mapError, eq_comm]
  | ok b => simp [Except.mapError]

theorem mapM_map {γ : Type} (g : β → γ) (xs : List α) :
    (xs.mapM fun x => (f x).map g) = (xs.mapM f).map (List.map g) := by
  induction xs with
  | nil => rfl
  | cons x xs ih =>
    rw [List.mapM_cons, List.mapM_cons, ih]
    cases f x with
    | error e => rfl
    | ok y => cases xs.mapM f <;> rfl

theorem mapM_eq_ok_iff {xs : List α} {ys : List β} :
    xs.mapM f = .ok ys ↔ List.Forall₂ (fun x y => f x = .ok y) xs ys := by
  induction xs generalizing ys with
  | nil =>
    rw [List.forall₂_nil_left_iff, List.mapM_nil]
    exact ⟨fun h => (Except.ok.inj h).symm, fun h => h ▸ rfl⟩
  | cons x xs ih =>
    rw [List.forall₂_cons_left_iff]
    cases hx : f x with
    | error e => simp [mapM_cons_of_error hx]
    | ok y =>
      rw [mapM_cons_of_ok hx, map_eq_ok]
      simp only [ih, Except.ok.injEq, exists_and_left, exists_eq_left']

theorem mapM_eq_ok_of_forall₂ {γ : Type} {g : γ → Except ε β} {R : α → γ → Prop} {xs : List α}
    {ys : List γ} {zs : List β} (h : List.Forall₂ R xs ys) (hxs : xs.mapM f = .ok zs)
    (hstep : ∀ x y z, R x y → f x = .ok z → g y = .ok z) : ys.mapM g = .ok zs := by
  rw [mapM_eq_ok_iff] at hxs ⊢
  induction h generalizing zs with
  | nil =>
    cases hxs
    exact .nil
  | @cons x y xs ys hxy _ ih =>
    cases hxs with
    | @cons _ z _ zs hz hrest => exact .cons (hstep x y z hxy hz) (ih hrest)

theorem mapM_eq_of_forall₂ {γ : Type} {g : γ → Except ε β} {xs : List α} {ys : List γ}
    (h : List.Forall₂ (fun x y => f x = g y) xs ys) : xs.mapM f = ys.mapM g := by
  induction h with
  | nil => rfl
  | cons hxy _ ih => rw [List.mapM_cons, List.mapM_cons, hxy, ih]

theorem mapM_eq_error_iff {xs : List α} {e : ε} :
    xs.mapM f = .error e ↔ ∃ before x after, xs = before ++ x :: after ∧
      (∀ b ∈ before, ∃ y, f b = .ok y) ∧ f x = .error e := by
  constructor
  · intro h
    induction xs with
    | nil => cases h
    | cons x xs ih =>
      cases hx : f x with
      | error d =>
        rw [mapM_cons_of_error hx] at h
        obtain rfl : d = e := Except.error.inj h
        exact ⟨[], x, xs, rfl, fun b hb => absurd hb List.not_mem_nil, hx⟩
      | ok y =>
        rw [mapM_cons_of_ok hx, map_eq_error] at h
        obtain ⟨before, z, after, rfl, hbefore, hz⟩ := ih h
        refine ⟨x :: before, z, after, rfl, fun b hb => ?_, hz⟩
        rcases List.mem_cons.1 hb with rfl | hb
        · exact ⟨y, hx⟩
        · exact hbefore b hb
  · rintro ⟨before, x, after, rfl, hbefore, hx⟩
    induction before with
    | nil => exact mapM_cons_of_error hx after
    | cons b before ih =>
      obtain ⟨y, hb⟩ := hbefore b (.head _)
      rw [List.cons_append, mapM_cons_of_ok hb, map_eq_error]
      exact ih fun c hc => hbefore c (.tail _ hc)

theorem exists_mapM_eq_ok {xs : List α} (h : ∀ x ∈ xs, ∃ y, f x = .ok y) :
    ∃ ys, xs.mapM f = .ok ys := by
  obtain ⟨ys, hys⟩ := exists_forall₂ h
  exact ⟨ys, mapM_eq_ok_iff.2 hys⟩

end SweepCharts
