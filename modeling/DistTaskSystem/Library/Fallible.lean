import Mathlib.Data.List.Forall2

/-!
# DTS — sequences of fallible steps

A loop whose body can throw is `mapM` or `foldlM` in `Except`. Both succeed
exactly if every step does; the lemmas here turn a successful loop into facts
about its steps and back, so that no proof about such a loop unfolds the monad.
-/

namespace DistTaskSystem

namespace Fallible

variable {α β σ ε ε' : Type}

theorem bind_eq_ok {x : Except ε α} {f : α → Except ε β} {b : β} :
    (x >>= f) = .ok b ↔ ∃ a, x = .ok a ∧ f a = .ok b := by
  cases x with
  | error e => simp [bind, Except.bind]
  | ok a => simp [bind, Except.bind]

theorem mapError_eq_ok {g : ε → ε'} {x : Except ε α} {a : α} :
    x.mapError g = .ok a ↔ x = .ok a := by
  cases x <;> simp [Except.mapError]

theorem map_eq_ok {g : α → β} {x : Except ε α} {b : β} :
    x.map g = .ok b ↔ ∃ a, x = .ok a ∧ g a = b := by
  cases x <;> simp [Except.map]

/-- A loop that succeeds has run each step, in order. -/
theorem mapM_eq_ok {f : α → Except ε β} {l : List α} {bs : List β} :
    l.mapM f = .ok bs ↔ List.Forall₂ (fun a b => f a = .ok b) l bs := by
  induction l generalizing bs with
  | nil =>
    rw [List.mapM_nil, List.forall₂_nil_left_iff]
    constructor
    · intro h
      exact (Except.ok.inj h).symm
    · rintro rfl
      rfl
  | cons a rest ih =>
    rw [List.mapM_cons, bind_eq_ok]
    constructor
    · rintro ⟨b, hb, h⟩
      obtain ⟨bs', hbs', h⟩ := bind_eq_ok.mp h
      obtain rfl := Except.ok.inj h
      exact .cons hb (ih.mp hbs')
    · intro h
      cases h with
      | cons hb hrest => exact ⟨_, hb, bind_eq_ok.mpr ⟨_, ih.mpr hrest, rfl⟩⟩

/-- It succeeds if each step does. -/
theorem mapM_total {f : α → Except ε β} {l : List α} (h : ∀ a ∈ l, ∃ b, f a = .ok b) :
    ∃ bs, l.mapM f = .ok bs := by
  induction l with
  | nil => exact ⟨[], rfl⟩
  | cons a rest ih =>
    obtain ⟨⟨b, hb⟩, hrest⟩ := List.forall_mem_cons.mp h
    obtain ⟨bs, hbs⟩ := ih hrest
    exact ⟨b :: bs, mapM_eq_ok.mpr (.cons hb (mapM_eq_ok.mp hbs))⟩

/-- Steps that succeed with known values. -/
theorem mapM_eq_map {f : α → Except ε β} {g : α → β} {l : List α}
    (h : ∀ a ∈ l, f a = .ok (g a)) : l.mapM f = .ok (l.map g) := by
  rw [mapM_eq_ok, List.forall₂_map_right_iff, List.forall₂_same]
  exact h

theorem bind_eq_error {x : Except ε α} {f : α → Except ε β} {e : ε} :
    (x >>= f) = .error e ↔ x = .error e ∨ ∃ a, x = .ok a ∧ f a = .error e := by
  cases x with
  | error e' => simp [bind, Except.bind]
  | ok a => simp [bind, Except.bind]

theorem foldlM_cons_eq_ok {f : σ → α → Except ε σ} {a : α} {rest : List α} {s s' : σ} :
    (a :: rest).foldlM f s = .ok s' ↔ ∃ m, f s a = .ok m ∧ rest.foldlM f m = .ok s' := by
  rw [List.foldlM_cons, bind_eq_ok]

/-- A loop that reads an element and adds it, by turns, succeeds exactly if all elements
can be read and what was read can be added, and comes to the same. -/
theorem foldlM_read {ε₁ ε₂ : Type} {f : σ → α → Except ε σ} {read : α → Except ε₁ β}
    {add : σ → β → Except ε₂ σ}
    (hstep : ∀ s a s', f s a = .ok s' ↔ ∃ b, read a = .ok b ∧ add s b = .ok s')
    {l : List α} {s s' : σ} :
    l.foldlM f s = .ok s' ↔ ∃ bs, l.mapM read = .ok bs ∧ bs.foldlM add s = .ok s' := by
  induction l generalizing s with
  | nil =>
    rw [List.mapM_nil]
    constructor
    · intro h
      obtain rfl : s = s' := Except.ok.inj h
      exact ⟨[], rfl, rfl⟩
    · rintro ⟨bs, hbs, h⟩
      obtain rfl := Except.ok.inj hbs
      obtain rfl : s = s' := Except.ok.inj h
      rfl
  | cons a rest ih =>
    rw [foldlM_cons_eq_ok, List.mapM_cons]
    constructor
    · rintro ⟨m, hm, hrest⟩
      obtain ⟨b, hb, hadd⟩ := (hstep s a m).mp hm
      obtain ⟨bs, hbs, hall⟩ := ih.mp hrest
      refine ⟨b :: bs, bind_eq_ok.mpr ⟨b, hb, bind_eq_ok.mpr ⟨bs, hbs, rfl⟩⟩, ?_⟩
      exact foldlM_cons_eq_ok.mpr ⟨m, hadd, hall⟩
    · rintro ⟨bs, hread, hall⟩
      obtain ⟨b, hb, hread⟩ := bind_eq_ok.mp hread
      obtain ⟨bs', hbs', hread⟩ := bind_eq_ok.mp hread
      obtain rfl := Except.ok.inj hread
      obtain ⟨m, hadd, hall⟩ := foldlM_cons_eq_ok.mp hall
      exact ⟨m, (hstep s a m).mpr ⟨b, hb, hadd⟩, ih.mpr ⟨bs', hbs', hall⟩⟩

section Forall₂

variable {R : α → β → Prop} {l : List α} {bs : List β}

theorem exists_right (h : List.Forall₂ R l bs) {a : α} (ha : a ∈ l) : ∃ b ∈ bs, R a b := by
  induction h with
  | nil => exact absurd ha List.not_mem_nil
  | cons hab _ ih =>
    rcases List.mem_cons.mp ha with rfl | ha
    · exact ⟨_, List.mem_cons_self, hab⟩
    · obtain ⟨b, hb, hR⟩ := ih ha
      exact ⟨b, List.mem_cons_of_mem _ hb, hR⟩

theorem exists_left (h : List.Forall₂ R l bs) {b : β} (hb : b ∈ bs) : ∃ a ∈ l, R a b :=
  exists_right h.flip hb

/-- An element of the one list cuts the other list as well. -/
theorem split_right {l₁ l₂ : List α} {a : α} (h : List.Forall₂ R (l₁ ++ a :: l₂) bs) :
    ∃ bs₁ b bs₂, bs = bs₁ ++ b :: bs₂ ∧ List.Forall₂ R l₁ bs₁ ∧ R a b := by
  induction l₁ generalizing bs with
  | nil =>
    obtain ⟨b, bs₂, hab, -, rfl⟩ := List.forall₂_cons_left_iff.mp h
    exact ⟨[], b, bs₂, rfl, .nil, hab⟩
  | cons c l₁ ih =>
    obtain ⟨d, bs', hcd, hrest, rfl⟩ := List.forall₂_cons_left_iff.mp h
    obtain ⟨bs₁, b, bs₂, rfl, hl₁, hab⟩ := ih hrest
    exact ⟨d :: bs₁, b, bs₂, rfl, .cons hcd hl₁, hab⟩

/-- Lists that match piece by piece match as a whole. -/
theorem forall₂_flatMap {γ : Type} {S : γ → β → Prop} {f : α → List γ} {bss : List (List β)}
    (h : List.Forall₂ (fun a bs => List.Forall₂ S (f a) bs) l bss) :
    List.Forall₂ S (l.flatMap f) bss.flatten := by
  induction h with
  | nil => exact .nil
  | cons hab _ ih => exact List.rel_append hab ih

theorem map_eq_map {γ : Type} (h : List.Forall₂ R l bs) {f : α → γ} {g : β → γ}
    (hfg : ∀ a b, R a b → g b = f a) : bs.map g = l.map f := by
  induction h with
  | nil => rfl
  | cons hab _ ih => rw [List.map_cons, List.map_cons, hfg _ _ hab, ih]

end Forall₂

end Fallible

end DistTaskSystem
