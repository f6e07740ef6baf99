import Mathlib.Data.List.Chain
import Mathlib.Order.WellFounded

/-! Searches that descend a branching structure, carry a flag downwards and
stop at the first node of interest. A `Search` bundles the recursion equation,
so a search is read off its walks whatever its definition looks like. -/

namespace Descent
variable {τ : Type*}

/-- A walk from `n` down to `m`; the nodes passed on the way lie above `m` and
none of them stops the descent. -/
inductive Walk (children : τ → List τ) (stop : τ → Bool) : τ → List τ → τ → Prop
  | here (n : τ) : Walk children stop n [] n
  | down {n c m : τ} {as : List τ} (hn : stop n = false) (hc : c ∈ children n)
      (h : Walk children stop c as m) : Walk children stop n (n :: as) m

theorem walk_iff_isChain {children : τ → List τ} {stop : τ → Bool} {n m : τ} {as : List τ} :
    Walk children stop n as m ↔ (as ++ [m]).IsChain (fun a b => b ∈ children a) ∧
      (as ++ [m]).head? = some n ∧ ∀ a ∈ as, stop a = false := by
  constructor
  · intro h
    induction h with
    | here n => simp
    | @down n c m as hn hc h ih =>
      obtain ⟨hchain, hhead, hpass⟩ := ih
      refine ⟨?_, rfl, ?_⟩
      · rw [List.cons_append, List.isChain_cons]
        refine ⟨?_, hchain⟩
        intro b hb
        rw [hhead] at hb
        exact Option.some.inj hb ▸ hc
      · intro a ha
        rcases List.mem_cons.mp ha with rfl | ha
        · exact hn
        · exact hpass a ha
  · intro hchained
    rcases hchained with ⟨hchain, hhead, hpass⟩
    induction as generalizing n with
    | nil =>
      simp only [List.nil_append, List.head?_cons, Option.some.injEq] at hhead
      exact hhead ▸ Walk.here m
    | cons a as ih =>
      simp only [List.cons_append, List.head?_cons, Option.some.injEq] at hhead
      subst hhead
      rw [List.cons_append, List.isChain_cons] at hchain
      obtain ⟨c, hc⟩ : ∃ c, (as ++ [m]).head? = some c := by
        cases as <;> simp
      exact Walk.down (hpass a (List.mem_cons_self ..)) (hchain.1 c hc)
        (ih hchain.2 hc fun b hb => hpass b (List.mem_cons_of_mem _ hb))

/-- A search with its parameters: where the descent stops, what grants at a
stopping node given the flag, what grants at a node that is passed, and what
sets the flag for everything below. -/
structure Search (τ : Type*) where
  children : τ → List τ
  wf : WellFounded fun c n => c ∈ children n
  stop : τ → Bool
  hit : Bool → τ → Bool
  accept : τ → Bool
  carry : τ → Bool
  run : Bool → τ → Bool
  run_eq : ∀ flag n, run flag n =
    if stop n then hit flag n
    else accept n || (children n).any (run (flag || carry n))

namespace Search
variable (S : Search τ)

def grants (flag : Bool) (as : List τ) (m : τ) : Bool :=
  if S.stop m then S.hit (flag || as.any S.carry) m else S.accept m

theorem grants_cons (flag : Bool) (n : τ) (as : List τ) (m : τ) :
    S.grants flag (n :: as) m = S.grants (flag || S.carry n) as m := by
  simp only [grants, List.any_cons, Bool.or_assoc]

theorem run_of_stop {n : τ} (hn : S.stop n = true) (flag : Bool) :
    S.run flag n = S.hit flag n := by
  rw [S.run_eq, if_pos hn]

theorem run_of_pass {n : τ} (hn : S.stop n = false) (flag : Bool) :
    S.run flag n = (S.accept n || (S.children n).any (S.run (flag || S.carry n))) := by
  rw [S.run_eq, if_neg (by simp [hn])]

theorem grants_nil_of_run {n : τ} {flag : Bool} (h : S.stop n = true ∨ S.accept n = true)
    (hrun : S.run flag n = true) : S.grants flag [] n = true := by
  rw [grants, List.any_nil, Bool.or_false]
  split
  · rwa [← S.run_of_stop ‹_›]
  · exact h.resolve_left ‹_›

theorem run_of_walk {flag : Bool} {n m : τ} {as : List τ}
    (h : Walk S.children S.stop n as m) (hg : S.grants flag as m = true) :
    S.run flag n = true := by
  induction h generalizing flag with
  | here n =>
    rw [grants, List.any_nil, Bool.or_false] at hg
    rw [S.run_eq]
    split at hg
    · rwa [if_pos ‹_›]
    · rw [if_neg ‹_›, hg, Bool.true_or]
  | @down n c m as hn hc h ih =>
    rw [S.run_of_pass hn, Bool.or_eq_true, List.any_eq_true]
    rw [S.grants_cons] at hg
    exact Or.inr ⟨c, hc, ih hg⟩

theorem walk_of_run {flag : Bool} {n : τ} (h : S.run flag n = true) :
    ∃ as m, Walk S.children S.stop n as m ∧ S.grants flag as m = true := by
  induction n using S.wf.induction generalizing flag with
  | _ n ih =>
    cases hn : S.stop n with
    | true => exact ⟨[], n, Walk.here n, S.grants_nil_of_run (Or.inl hn) h⟩
    | false =>
      have hsplit := h
      rw [S.run_of_pass hn, Bool.or_eq_true, List.any_eq_true] at hsplit
      rcases hsplit with ha | ⟨c, hc, hrun⟩
      · exact ⟨[], n, Walk.here n, S.grants_nil_of_run (Or.inr ha) h⟩
      · obtain ⟨as, m, hw, hg⟩ := ih c hc hrun
        rw [← S.grants_cons] at hg
        exact ⟨n :: as, m, Walk.down hn hc hw, hg⟩

/-- A search succeeds exactly when one of its walks ends in a grant. -/
theorem run_iff_walk {flag : Bool} {n : τ} :
    S.run flag n = true ↔
      ∃ as m, Walk S.children S.stop n as m ∧ S.grants flag as m = true :=
  ⟨S.walk_of_run, fun ⟨_, _, hw, hg⟩ => S.run_of_walk hw hg⟩

/-- A relation under which the right-hand node offers a search at least as much
as the left-hand one. -/
structure Simulation (R : τ → τ → Prop) : Prop where
  stop : ∀ {n n'}, R n n' → S.stop n = S.stop n'
  hit : ∀ {n n' flag flag'}, R n n' → (flag = true → flag' = true) →
    S.hit flag n = true → S.hit flag' n' = true
  accept : ∀ {n n'}, R n n' → S.accept n = true → S.accept n' = true
  carry : ∀ {n n'}, R n n' → S.carry n = true → S.carry n' = true
  children : ∀ {n n'}, R n n' → ∀ c ∈ S.children n, ∃ c' ∈ S.children n', R c c'

variable {S}

theorem Simulation.run_mono {R : τ → τ → Prop} (hR : S.Simulation R) {n n' : τ} (h : R n n')
    {flag flag' : Bool} (hflag : flag = true → flag' = true) (hrun : S.run flag n = true) :
    S.run flag' n' = true := by
  induction n using S.wf.induction generalizing n' flag flag' with
  | _ n ih =>
    cases hn : S.stop n with
    | true =>
      rw [S.run_of_stop hn] at hrun
      rw [S.run_of_stop (hR.stop h ▸ hn)]
      exact hR.hit h hflag hrun
    | false =>
      rw [S.run_of_pass hn, Bool.or_eq_true, List.any_eq_true] at hrun
      rw [S.run_of_pass (hR.stop h ▸ hn), Bool.or_eq_true, List.any_eq_true]
      refine hrun.imp (hR.accept h) ?_
      intro hchild
      rcases hchild with ⟨c, hc, hrun⟩
      obtain ⟨c', hc', hcc⟩ := hR.children h c hc
      refine ⟨c', hc', ih c hc hcc ?_ hrun⟩
      simp only [Bool.or_eq_true]
      exact Or.imp hflag (hR.carry h)

theorem Simulation.any_mono {R : τ → τ → Prop} (hR : S.Simulation R) {f f' : List τ}
    (flag : Bool) (h : ∀ n ∈ f, ∃ n' ∈ f', R n n') (hrun : f.any (S.run flag) = true) :
    f'.any (S.run flag) = true := by
  rw [List.any_eq_true] at hrun ⊢
  obtain ⟨n, hn, hrun⟩ := hrun
  obtain ⟨n', hn', hnn⟩ := h n hn
  exact ⟨n', hn', hR.run_mono hnn id hrun⟩

/-- A search among nodes at which there is nothing to be found fails. -/
theorem run_of_barren {P : τ → Prop} (hchildren : ∀ n, P n → ∀ c ∈ S.children n, P c)
    (hhit : ∀ n, P n → S.hit false n = false) (haccept : ∀ n, P n → S.accept n = false)
    (hcarry : ∀ n, P n → S.carry n = false) {n : τ} (hn : P n) : S.run false n = false := by
  induction n using S.wf.induction with
  | _ n ih =>
    cases hstop : S.stop n with
    | true => rw [S.run_of_stop hstop, hhit n hn]
    | false =>
      rw [S.run_of_pass hstop, haccept n hn, hcarry n hn, Bool.false_or, Bool.false_or,
        List.any_eq_false]
      intro c hc
      rw [ih c hc (hchildren n hn c hc)]
      exact Bool.false_ne_true

/-- Two images of the nodes, with the same branches and stops, that share out what
a search finds at a node. -/
structure Splits (S : Search τ) (f g : τ → τ) : Prop where
  stop_left : ∀ n, S.stop (f n) = S.stop n
  stop_right : ∀ n, S.stop (g n) = S.stop n
  children_left : ∀ n, S.children (f n) = (S.children n).map f
  children_right : ∀ n, S.children (g n) = (S.children n).map g
  hit : ∀ a b n, S.hit (a || b) n = (S.hit a (f n) || S.hit b (g n))
  accept : ∀ n, S.accept n = (S.accept (f n) || S.accept (g n))
  carry : ∀ n, S.carry n = (S.carry (f n) || S.carry (g n))

theorem any_congr_of_mem {α : Type*} {p q : α → Bool} {xs : List α} (h : ∀ x ∈ xs, p x = q x) :
    xs.any p = xs.any q := by
  rw [Bool.eq_iff_iff, List.any_eq_true, List.any_eq_true]
  apply exists_congr
  intro x
  apply and_congr_right
  intro hx
  rw [h x hx]

theorem any_or {α : Type*} (p q : α → Bool) (xs : List α) :
    (xs.any fun x => p x || q x) = (xs.any p || xs.any q) := by
  induction xs with
  | nil => rfl
  | cons x xs ih =>
    rw [List.any_cons, List.any_cons, List.any_cons, ih]
    cases p x <;> cases q x <;> simp

/-- What a search finds is found in one of the images. -/
theorem Splits.run {f g : τ → τ} (h : S.Splits f g) (a b : Bool) (n : τ) :
    S.run (a || b) n = (S.run a (f n) || S.run b (g n)) := by
  induction n using S.wf.induction generalizing a b with
  | _ n ih =>
    cases hn : S.stop n with
    | true =>
      rw [S.run_of_stop hn, S.run_of_stop (h.stop_left n ▸ hn), S.run_of_stop (h.stop_right n ▸ hn),
        h.hit]
    | false =>
      rw [S.run_of_pass hn, S.run_of_pass ((h.stop_left n).trans hn),
        S.run_of_pass ((h.stop_right n).trans hn), h.children_left, h.children_right, h.accept,
        h.carry, List.any_map, List.any_map]
      -- the flags that are handed down are split as well
      have hflag : (a || b || (S.carry (f n) || S.carry (g n))) =
          (a || S.carry (f n) || (b || S.carry (g n))) := by
        cases a <;> cases b <;> simp
      have hchildren : (S.children n).any (S.run (a || b || (S.carry (f n) || S.carry (g n)))) =
          (S.children n).any fun c =>
            S.run (a || S.carry (f n)) (f c) || S.run (b || S.carry (g n)) (g c) := by
        rw [hflag]
        exact any_congr_of_mem fun c hc => ih c hc _ _
      rw [hchildren, any_or]
      ac_rfl

theorem Splits.any {f g : τ → τ} (h : S.Splits f g) (forest : List τ) :
    forest.any (S.run false) =
      ((forest.map f).any (S.run false) || (forest.map g).any (S.run false)) := by
  have hrun : S.run false = fun n => S.run false (f n) || S.run false (g n) :=
    funext fun n => h.run false false n
  rw [List.any_map, List.any_map]
  conv_lhs => rw [hrun]
  exact any_or ..

/-- Images of the nodes in contexts that grow on the way down, with the same branches
and stops. What a context holds is found at the image, and nothing is carried on. -/
structure Pushes {κ : Type*} (S : Search τ) (push : κ → τ → τ) (below : κ → τ → κ)
    (held : κ → Bool) : Prop where
  stop : ∀ k n, S.stop (push k n) = S.stop n
  children : ∀ k n, S.children (push k n) = (S.children n).map (push (below k n))
  hit : ∀ flag k n, S.hit flag (push k n) = S.hit (flag || held k) n
  accept : ∀ k n, S.accept (push k n) = S.accept n
  carry : ∀ k n, S.carry (push k n) = false
  held_below : ∀ k n, held (below k n) = (held k || S.carry n)

/-- A search of an image is the search of the node with what its context holds. -/
theorem Pushes.run {κ : Type*} {push : κ → τ → τ} {below : κ → τ → κ} {held : κ → Bool}
    (h : S.Pushes push below held) (flag : Bool) (k : κ) (n : τ) :
    S.run flag (push k n) = S.run (flag || held k) n := by
  induction n using S.wf.induction generalizing k with
  | _ n ih =>
    cases hn : S.stop n with
    | true => rw [S.run_of_stop hn, S.run_of_stop ((h.stop k n).trans hn), h.hit]
    | false =>
      have hchildren : ((S.children n).map (push (below k n))).any (S.run flag) =
          (S.children n).any (S.run (flag || held k || S.carry n)) := by
        rw [List.any_map, Bool.or_assoc, ← h.held_below]
        exact any_congr_of_mem fun c hc => ih c hc _
      rw [S.run_of_pass hn, S.run_of_pass ((h.stop k n).trans hn), h.children, h.accept, h.carry,
        Bool.or_false, hchildren]

end Search
end Descent
