import Mathlib.Data.Finset.Card
import Mathlib.Data.Finset.Filter
import Mathlib.Logic.Function.Basic
import Mathlib.Logic.Relation
import Mathlib.Order.WellFoundedSet

/-!
# Three-colour cycle detection

Depth-first search over an adjacency function: a node is grey while its
subtree is being searched and black afterwards, and a grey neighbour closes a
cycle. The search takes a fuel argument, one unit for each nested call.

* `visit_spec` — what one call leaves behind: if it found no cycle, the node
  and everything below it are black and no path from a black node is infinite;
  if it found one, there is a cycle.
* `search_spec` — the search over a list of start nodes answers that there is
  no cycle iff no path from them is infinite.
* `search_total` — the fuel suffices as soon as it exceeds the number of nodes.
-/

namespace Dfs

variable {α : Type*}

inductive Color where
  | white
  | grey
  | black
deriving DecidableEq, Repr

/-- An edge of the searched graph. -/
def Edge (adj : α → List α) (p c : α) : Prop := c ∈ adj p

variable [DecidableEq α]

/-- The loop over the neighbours; `go` searches from a white one. The answer is
whether a cycle was found, `none` if the fuel ran out. -/
def scan (go : α → (α → Color) → Option (Bool × (α → Color))) :
    List α → (α → Color) → Option (Bool × (α → Color))
  | [], vis => some (false, vis)
  | v :: rest, vis =>
    match vis v with
    | .grey => some (true, vis)
    | .black => scan go rest vis
    | .white =>
      match go v vis with
      | some (false, vis') => scan go rest vis'
      | result => result

/-- The search from one node. -/
def visit (adj : α → List α) : ℕ → α → (α → Color) → Option (Bool × (α → Color))
  | 0, _, _ => none
  | fuel + 1, u, vis =>
    match scan (visit adj fuel) (adj u) (Function.update vis u .grey) with
    | some (false, vis') => some (false, Function.update vis' u .black)
    | result => result

/-- The search from every white node of a list: the first start node a cycle
was found from. -/
def search (adj : α → List α) (fuel : ℕ) : List α → (α → Color) → Option (Option α)
  | [], _ => some none
  | u :: rest, vis =>
    if vis u = .white then
      match visit adj fuel u vis with
      | some (false, vis') => search adj fuel rest vis'
      | some (true, _) => some (some u)
      | none => none
    else search adj fuel rest vis

/-! ## What a call leaves behind -/

/-- No infinite path starts at a black node. -/
def Safe (adj : α → List α) (vis : α → Color) : Prop :=
  ∀ x, vis x = .black → Acc (fun c p => Edge adj p c) x

/-- All grey nodes lead to `u`: they are the path the search is on. -/
def OnPath (adj : α → List α) (vis : α → Color) (u : α) : Prop :=
  ∀ x, vis x = .grey → Relation.ReflTransGen (Edge adj) x u

/-- A call that found no cycle blackened nodes and changed nothing else. -/
def Extends (vis vis' : α → Color) : Prop :=
  ∀ x, vis' x = vis x ∨ (vis x = .white ∧ vis' x = .black)

omit [DecidableEq α] in
theorem Extends.refl (vis : α → Color) : Extends vis vis := fun _ => .inl rfl

omit [DecidableEq α] in
theorem Extends.trans {vis vis' vis'' : α → Color} (h : Extends vis vis')
    (h' : Extends vis' vis'') : Extends vis vis'' := by
  intro x
  rcases h x with hx | ⟨hw, hb⟩
  · rcases h' x with hx' | ⟨hw', hb'⟩
    · exact .inl (hx'.trans hx)
    · exact .inr ⟨hx.symm.trans hw', hb'⟩
  · rcases h' x with hx' | ⟨hw', -⟩
    · exact .inr ⟨hw, hx'.trans hb⟩
    · rw [hb] at hw'
      cases hw'

omit [DecidableEq α] in
theorem Extends.black {vis vis' : α → Color} (h : Extends vis vis') {x : α}
    (hx : vis x = .black) : vis' x = .black := by
  rcases h x with hx' | ⟨hw, -⟩
  · rw [hx', hx]
  · rw [hx] at hw
    cases hw

omit [DecidableEq α] in
theorem Extends.grey {vis vis' : α → Color} (h : Extends vis vis') {x : α}
    (hx : vis' x = .grey) : vis x = .grey := by
  rcases h x with hx' | ⟨-, hb⟩
  · rw [← hx', hx]
  · rw [hx] at hb
    cases hb

section Spec

variable {adj : α → List α}

/-- What is claimed of a search from a white node, for a given colouring. -/
def VisitSpec (adj : α → List α) (u : α) (vis : α → Color) :
    Option (Bool × (α → Color)) → Prop
  | none => True
  | some (false, vis') => Extends vis vis' ∧ vis' u = .black ∧ (Safe adj vis → Safe adj vis')
  | some (true, _) => OnPath adj vis u → ∃ x, Relation.TransGen (Edge adj) x x

omit [DecidableEq α] in
/-- The loop over some neighbours of `u`. -/
theorem scan_spec {go : α → (α → Color) → Option (Bool × (α → Color))}
    (hgo : ∀ v vis, vis v = .white → VisitSpec adj v vis (go v vis)) {u : α} {l : List α}
    (hl : ∀ v ∈ l, Edge adj u v) (vis : α → Color) :
    match scan go l vis with
    | none => True
    | some (false, vis') =>
      Extends vis vis' ∧ (∀ v ∈ l, vis' v = .black) ∧ (Safe adj vis → Safe adj vis')
    | some (true, _) => OnPath adj vis u → ∃ x, Relation.TransGen (Edge adj) x x := by
  induction l generalizing vis with
  | nil => exact ⟨.refl vis, by simp, id⟩
  | cons v rest ih =>
    obtain ⟨hv, hrest⟩ := List.forall_mem_cons.mp hl
    rw [scan]
    cases hcolor : vis v with
    | grey =>
      -- the neighbour is on the path: the edge to it closes a cycle
      exact fun hpath => ⟨v, Relation.TransGen.tail' (hpath v hcolor) hv⟩
    | black =>
      have hscan := ih hrest vis
      dsimp only
      split
      · trivial
      · next vis' heq =>
        rw [heq] at hscan
        obtain ⟨hext, hblack, hsafe⟩ := hscan
        exact ⟨hext, List.forall_mem_cons.mpr ⟨hext.black hcolor, hblack⟩, hsafe⟩
      · next vis' heq =>
        rw [heq] at hscan
        exact hscan
    | white =>
      have hvisit := hgo v vis hcolor
      dsimp only
      cases hres : go v vis with
      | none => trivial
      | some res =>
        obtain ⟨found, vis₁⟩ := res
        rw [hres] at hvisit
        cases found with
        | true =>
          -- a cycle below `v` is a cycle, and the path to `v` runs through `u`
          exact fun hpath => hvisit fun x hx => (hpath x hx).tail hv
        | false =>
          obtain ⟨hext₁, hblack₁, hsafe₁⟩ := hvisit
          have hscan := ih hrest vis₁
          dsimp only
          split
          · trivial
          · next vis' heq =>
            rw [heq] at hscan
            obtain ⟨hext, hblack, hsafe⟩ := hscan
            exact ⟨hext₁.trans hext, List.forall_mem_cons.mpr ⟨hext.black hblack₁, hblack⟩,
              fun h => hsafe (hsafe₁ h)⟩
          · next vis' heq =>
            rw [heq] at hscan
            exact fun hpath => hscan fun x hx => hpath x (hext₁.grey hx)

/-- **One call of the search**: by induction on the fuel, through the loop. -/
theorem visit_spec (adj : α → List α) (fuel : ℕ) {u : α} {vis : α → Color} (hu : vis u = .white) :
    VisitSpec adj u vis (visit adj fuel u vis) := by
  induction fuel generalizing u vis with
  | zero => trivial
  | succ fuel ih =>
    have hscan := scan_spec (fun v vis hv => @ih v vis hv) (fun v (hv : v ∈ adj u) => hv)
      (Function.update vis u .grey)
    rw [visit]
    cases hres : scan (visit adj fuel) (adj u) (Function.update vis u .grey) with
    | none => trivial
    | some res =>
      obtain ⟨found, vis₁⟩ := res
      rw [hres] at hscan
      cases found with
      | true =>
        -- marking `u` grey puts it on the path to itself
        refine fun hpath => hscan fun x hx => ?_
        by_cases hxu : x = u
        · exact hxu ▸ .refl
        · rw [Function.update_of_ne hxu] at hx
          exact hpath x hx
      | false =>
        obtain ⟨hext, hblack, hsafe⟩ := hscan
        refine ⟨fun x => ?_, Function.update_self .., fun h x hx => ?_⟩
        · by_cases hxu : x = u
          · subst hxu
            exact .inr ⟨hu, Function.update_self ..⟩
          · have hx := hext x
            rw [Function.update_of_ne hxu] at hx ⊢
            exact hx
        · have hsafe₁ : Safe adj vis₁ := hsafe fun y hy => by
            by_cases hyu : y = u
            · rw [hyu, Function.update_self] at hy
              cases hy
            · rw [Function.update_of_ne hyu] at hy
              exact h y hy
          by_cases hxu : x = u
          · subst hxu
            exact Acc.intro x fun c hc => hsafe₁ c (hblack c hc)
          · rw [Function.update_of_ne hxu] at hx
            exact hsafe₁ x hx

/-- **The search over a list of start nodes.** -/
theorem search_spec {fuel : ℕ} {starts : List α} {vis : α → Color}
    (hgrey : ∀ x, vis x ≠ .grey) (hsafe : Safe adj vis)
    (hstarts : ∀ u ∈ starts, vis u = .black → Acc (fun c p => Edge adj p c) u) :
    match search adj fuel starts vis with
    | none => True
    | some none => ∀ u ∈ starts, Acc (fun c p => Edge adj p c) u
    | some (some u) => u ∈ starts ∧ ∃ x, Relation.TransGen (Edge adj) x x := by
  induction starts generalizing vis with
  | nil => exact fun u hu => absurd hu List.not_mem_nil
  | cons u rest ih =>
    obtain ⟨hblack, hrest⟩ := List.forall_mem_cons.mp hstarts
    rw [search]
    by_cases hu : vis u = .white
    · rw [if_pos hu]
      have hvisit := visit_spec adj fuel hu
      cases hres : visit adj fuel u vis with
      | none => trivial
      | some res =>
        obtain ⟨found, vis₁⟩ := res
        rw [hres] at hvisit
        cases found with
        | true =>
          -- no node is grey outside a call, so the path is empty
          exact ⟨List.mem_cons_self, hvisit fun x hx => absurd hx (hgrey x)⟩
        | false =>
          obtain ⟨hext, hub, hsafe₁⟩ := hvisit
          have hrec := @ih vis₁ (fun x hx => hgrey x (hext.grey hx)) (hsafe₁ hsafe)
            fun v _ hv => hsafe₁ hsafe v hv
          dsimp only
          split
          · trivial
          · next heq =>
            rw [heq] at hrec
            exact List.forall_mem_cons.mpr ⟨hsafe₁ hsafe u hub, hrec⟩
          · next v heq =>
            rw [heq] at hrec
            exact ⟨List.mem_cons_of_mem u hrec.1, hrec.2⟩
    · rw [if_neg hu]
      have hub : vis u = .black := by
        cases hcolor : vis u with
        | white => exact absurd hcolor hu
        | grey => exact absurd hcolor (hgrey u)
        | black => rfl
      have hrec := ih hgrey hsafe hrest
      split
      · trivial
      · next heq =>
        rw [heq] at hrec
        exact List.forall_mem_cons.mpr ⟨hblack hub, hrec⟩
      · next v heq =>
        rw [heq] at hrec
        exact ⟨List.mem_cons_of_mem u hrec.1, hrec.2⟩

end Spec

/-! ## The fuel suffices -/

section Fuel

variable {adj : α → List α} {V : Finset α}

/-- The nodes not reached yet. -/
def whites (V : Finset α) (vis : α → Color) : ℕ := (V.filter fun x => vis x = .white).card

omit [DecidableEq α] in
theorem Extends.whites_le {vis vis' : α → Color} (h : Extends vis vis') :
    whites V vis' ≤ whites V vis := by
  refine Finset.card_le_card fun x hx => ?_
  rw [Finset.mem_filter] at hx ⊢
  rcases h x with heq | ⟨hw, -⟩
  · exact ⟨hx.1, heq ▸ hx.2⟩
  · exact ⟨hx.1, hw⟩

/-- Marking a white node grey takes one off the white nodes. -/
theorem whites_update {u : α} {vis : α → Color} (hu : u ∈ V) (hw : vis u = .white) :
    whites V (Function.update vis u .grey) + 1 = whites V vis := by
  have herase : (V.filter fun x => Function.update vis u .grey x = .white) =
      (V.filter fun x => vis x = .white).erase u := by
    ext x
    by_cases hxu : x = u
    · subst hxu
      simp
    · simp [hxu]
  rw [whites, herase, whites]
  exact Finset.card_erase_add_one (Finset.mem_filter.mpr ⟨hu, hw⟩)

omit [DecidableEq α] in
theorem scan_total {go : α → (α → Color) → Option (Bool × (α → Color))} {n : ℕ}
    (hgo : ∀ v ∈ V, ∀ vis, vis v = .white → whites V vis ≤ n → go v vis ≠ none)
    (hext : ∀ v vis vis', vis v = .white → go v vis = some (false, vis') → Extends vis vis')
    {l : List α} (hl : ∀ v ∈ l, v ∈ V) {vis : α → Color} (hn : whites V vis ≤ n) :
    scan go l vis ≠ none := by
  induction l generalizing vis with
  | nil => exact Option.some_ne_none _
  | cons v rest ih =>
    obtain ⟨hv, hrest⟩ := List.forall_mem_cons.mp hl
    rw [scan]
    cases hcolor : vis v with
    | grey => exact Option.some_ne_none _
    | black => exact ih hrest hn
    | white =>
      dsimp only
      cases hres : go v vis with
      | none => exact absurd hres (hgo v hv vis hcolor hn)
      | some res =>
        obtain ⟨found, vis₁⟩ := res
        cases found with
        | true => exact Option.some_ne_none _
        | false => exact ih hrest ((hext v vis vis₁ hcolor hres).whites_le.trans hn)

/-- Each nested call has one white node less to reach. -/
theorem visit_total (hV : ∀ u ∈ V, ∀ v ∈ adj u, v ∈ V) {fuel : ℕ} {u : α} (hu : u ∈ V)
    {vis : α → Color} (hw : vis u = .white) (hfuel : whites V vis ≤ fuel) :
    visit adj fuel u vis ≠ none := by
  induction fuel generalizing u vis with
  | zero =>
    have := whites_update hu hw
    omega
  | succ fuel ih =>
    have hless := whites_update hu hw
    have hscan := scan_total (fun v hv vis hcolor hn => ih hv hcolor hn)
      (fun v vis vis' hcolor hres => by
        have hspec := visit_spec adj fuel hcolor
        rw [hres] at hspec
        exact hspec.1)
      (hV u hu) (show whites V (Function.update vis u .grey) ≤ fuel by omega)
    rw [visit]
    cases hres : scan (visit adj fuel) (adj u) (Function.update vis u .grey) with
    | none => exact absurd hres hscan
    | some res =>
      obtain ⟨found, vis₁⟩ := res
      cases found <;> exact Option.some_ne_none _

/-- **The search ends** when it has one unit of fuel for each node. -/
theorem search_total (hV : ∀ u ∈ V, ∀ v ∈ adj u, v ∈ V) {fuel : ℕ} (hfuel : V.card ≤ fuel)
    {starts : List α} (hstarts : ∀ u ∈ starts, u ∈ V) (vis : α → Color) :
    search adj fuel starts vis ≠ none := by
  induction starts generalizing vis with
  | nil => exact Option.some_ne_none _
  | cons u rest ih =>
    obtain ⟨hu, hrest⟩ := List.forall_mem_cons.mp hstarts
    rw [search]
    by_cases hw : vis u = .white
    · rw [if_pos hw]
      have hle : whites V vis ≤ fuel := (Finset.card_filter_le _ _).trans hfuel
      cases hres : visit adj fuel u vis with
      | none => exact absurd hres (visit_total hV hu hw hle)
      | some res =>
        obtain ⟨found, vis₁⟩ := res
        cases found with
        | true => exact Option.some_ne_none _
        | false => exact ih hrest vis₁
    · rw [if_neg hw]
      exact ih hrest vis

end Fuel

/-! ## Finite graphs without cycles -/

omit [DecidableEq α] in
/-- If no path is infinite, no path is closed. -/
theorem acyclic_of_acc {E : α → α → Prop} (hacc : ∀ p c, E p c → Acc (fun c p => E p c) p)
    (x : α) : ¬ Relation.TransGen E x x := by
  intro hloop
  have hwf : WellFounded fun c p => E p c :=
    ⟨fun p => ⟨p, fun c hc => (hacc p c hc).inv hc⟩⟩
  have hswap : Relation.TransGen (fun c p => E p c) x x := Relation.transGen_swap.mp hloop
  exact hwf.transGen.irrefl.irrefl x hswap

omit [DecidableEq α] in
/-- A finite graph without closed paths has no infinite path backwards either. -/
theorem wellFounded_of_acyclic {E : α → α → Prop} (hfin : {x | ∃ y, E x y ∨ E y x}.Finite)
    (hloop : ∀ x, ¬ Relation.TransGen E x x) : WellFounded E := by
  have hirrefl : Std.Irrefl (Relation.TransGen E) := ⟨hloop⟩
  have horder : IsStrictOrder α (Relation.TransGen E) := { }
  have hwf := (Set.wellFoundedOn_iff (r := Relation.TransGen E)).mp hfin.wellFoundedOn
  refine Subrelation.wf (fun {a b} hab => ?_) hwf
  exact ⟨.single hab, ⟨b, .inl hab⟩, ⟨a, .inr hab⟩⟩

omit [DecidableEq α] in
/-- In a finite graph the two are the same. -/
theorem wellFounded_iff_acyclic {E : α → α → Prop} (hfin : {x | ∃ y, E x y ∨ E y x}.Finite) :
    WellFounded E ↔ ∀ x, ¬ Relation.TransGen E x x :=
  ⟨fun hwf x hloop => hwf.transGen.irrefl.irrefl x hloop, wellFounded_of_acyclic hfin⟩

end Dfs
