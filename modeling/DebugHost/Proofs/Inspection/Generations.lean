import DebugHost.Proofs.Inspection.Provenance

/-! # Results of one generation

A call may be overtaken by any number of new generations between its critical sections. The main
statement, `inspection_keeps_generation`, says that none of them shows in a result: if a call succeeds,
its generation was there from the moment it took its slot, the answer was asked for and given within it,
and the handles that come back carry it. A call with a handle of another generation fails at once and
asks nothing. -/

namespace DebugHost.Inspection

open Scene

/-- All handles of a view are of one generation, and every group of variables has a number. -/
def View.Carries (g : Generation) : View → Prop
  | .frames fs => ∀ f ∈ fs, f.ref.generation = g
  | .scopes ss => ∀ s ∈ ss, ∀ r, s.values = some r → r.generation = g ∧ 0 < r.raw
  | .values vs => ∀ v ∈ vs, ∀ r, v.children = some r → r.generation = g ∧ 0 < r.raw

theorem VarRef.of?_some {g : Generation} {raw : Int} {r : VarRef} (h : VarRef.of? g raw = some r) :
    r.generation = g ∧ 0 < r.raw := by
  unfold VarRef.of? at h
  split_ifs at h with hr
  cases h
  exact ⟨rfl, hr⟩

theorem View.carries_of (g : Generation) (a : Answer) : (View.of g a).Carries g := by
  cases a with
  | frames fs =>
    intro f hf
    obtain ⟨f', -, rfl⟩ := List.mem_map.mp hf
    rfl
  | scopes ss =>
    intro s hs r hr
    obtain ⟨s', -, rfl⟩ := List.mem_map.mp hs
    exact VarRef.of?_some hr
  | values vs =>
    intro v hv r hr
    obtain ⟨v', -, rfl⟩ := List.mem_map.mp hv
    exact VarRef.of?_some hr

/-! ### Calls go forward -/

/-- How far a call has come. -/
def Call.place : Call → Nat
  | .start _ => 1
  | .joined _ => 2
  | .asking _ => 3
  | .check .. => 4

/-- How far a turn brings its call. -/
def Turn.place (t : Turn) : Nat := t.call?.elim 5 Call.place

/-- How far the call `me` has come. -/
def Scene.place (x : Scene) (me : Nat) : Nat := (x.calls me).elim 0 Turn.place

theorem Turn.place_of_call? {t : Turn} {c : Call} (h : t.call? = some c) : t.place = c.place := by
  unfold Turn.place; rw [h]; rfl

theorem Scene.place_of_call? {x : Scene} {me : Nat} {c : Call} (h : x.call? me = some c) :
    x.place me = c.place := by
  unfold call? at h
  obtain ⟨t, ht, hc⟩ := Option.bind_eq_some_iff.mp h
  unfold place
  rw [ht]
  exact Turn.place_of_call? hc

theorem Call.place_step (me : Nat) (t : Tree) (c : Call) : c.place ≤ (c.step me t).1.place := by
  cases c with
  | start q =>
    rcases step_start me t q with ⟨e, -, h⟩ | ⟨g, -, h⟩
    · rw [h]; show 1 ≤ 5; omega
    · rw [h]; show 1 ≤ 2; omega
  | joined k =>
    rcases step_joined me t k with ⟨v, -, h⟩ | h | h
    · rw [h]; show 2 ≤ 4; omega
    · rw [h]; show 2 ≤ 3; omega
    · rw [h]; exact Nat.le_refl 2
  | asking k => exact Nat.le_refl 3
  | check g v => show 4 ≤ 5; omega

theorem Call.place_answered (t : Tree) (r : Except DebugError Answer) (c : Call) :
    c.place ≤ (c.answered t r).1.place := by
  cases c with
  | asking k =>
    rcases answered_asking t k r with ⟨a, -, h⟩ | ⟨e, -, h⟩
    · rw [h]; show 3 ≤ 4; omega
    · rw [h]; show 3 ≤ 5; omega
  | start q => exact Nat.le_refl 1
  | joined k => exact Nat.le_refl 2
  | check g v => exact Nat.le_refl 4

theorem Call.place_lt (c : Call) : c.place < 5 := by
  cases c <;> simp only [Call.place] <;> omega

theorem Scene.place_put {x : Scene} {me i : Nat} {t : Turn} {tree : Tree}
    (h : x.place me ≤ t.place) : x.place i ≤ (x.put me t tree).place i := by
  show _ ≤ ((x.put me t tree).calls i).elim 0 Turn.place
  rw [put_calls]
  split
  · next hi => subst hi; exact h
  · exact Nat.le_refl _

theorem Scene.place_move (x : Scene) (m : Move) (i : Nat) : x.place i ≤ (x.move m).place i := by
  cases m with
  | begin me q =>
    unfold move
    simp only
    split
    · next hn => exact place_put (by unfold place; rw [hn]; exact Nat.zero_le _)
    · exact Nat.le_refl _
  | step me =>
    unfold move
    simp only
    split
    · exact Nat.le_refl _
    · next c hc => exact place_put (by rw [place_of_call? hc]; exact c.place_step me x.tree)
  | answer me r =>
    unfold move
    simp only
    split
    · exact Nat.le_refl _
    · next c hc => exact place_put (by rw [place_of_call? hc]; exact c.place_answered x.tree r)
  | advance paused => exact Nat.le_refl _
  | shut => exact Nat.le_refl _

variable {σ : Nat → Move}

theorem place_after {i j : Nat} (h : i ≤ j) (me : Nat) :
    (after σ i).place me ≤ (after σ j).place me := by
  induction h with
  | refl => exact Nat.le_refl _
  | step _ ih => exact Nat.le_trans ih (place_move _ _ me)

/-! ### How calls end -/

/-- The last move of a call: it begins in vain, a question of its own fails, or its view is checked. -/
theorem Returns.cases {n me : Nat} {r : Except DebugError View} (h : Returns σ n me r) :
    (∃ q e, σ n = .step me ∧ (after σ n).call? me = some (.start q) ∧
      (after σ n).tree.allow q = .error e ∧ r = .error e) ∨
    (∃ k e, Answers σ n me k (.error e) ∧ r = .error e) ∨
    (∃ g v, σ n = .step me ∧ (after σ n).call? me = some (.check g v) ∧
      r = (after σ n).tree.confirm g v ∧ (after σ (n + 1)).tree = (after σ n).tree) := by
  obtain ⟨hb, ht⟩ := h
  obtain ⟨c, hc⟩ := Option.ne_none_iff_exists'.mp hb
  have hplace : (after σ n).place me < 5 := by
    rw [place_of_call? hc]
    exact c.place_lt
  have hdone : (after σ (n + 1)).place me = 5 := by
    unfold place; rw [ht]; rfl
  -- a move of another call leaves `me` where it is
  have hmine : ∀ i t tree, after σ (n + 1) = (after σ n).put i t tree → i = me ∧ t = .done r := by
    intro i t tree hs
    rw [hs, put_calls] at ht
    split at ht
    · next hi => exact ⟨hi.symm, Option.some.inj ht⟩
    · unfold place at hplace
      rw [ht] at hplace
      exact absurd hplace (Nat.lt_irrefl 5)
  have hstay : after σ (n + 1) ≠ after σ n := by
    intro hs; rw [hs] at hdone; omega
  cases hm : σ n with
  | begin i q =>
    have hs := after_succ σ hm
    unfold move at hs
    simp only at hs
    split at hs
    · cases (hmine _ _ _ hs).2
    · exact absurd hs hstay
  | advance paused =>
    rw [after_succ σ hm] at hdone
    change (after σ n).place me = 5 at hdone
    omega
  | shut =>
    rw [after_succ σ hm] at hdone
    change (after σ n).place me = 5 at hdone
    omega
  | step i =>
    have hs := after_succ σ hm
    unfold move at hs
    simp only at hs
    split at hs
    · exact absurd hs hstay
    · next c' hc' =>
      obtain ⟨rfl, hr⟩ := hmine _ _ _ hs
      cases hc.symm.trans hc'
      cases c with
      | start q =>
        rcases step_start i (after σ n).tree q with ⟨e, he, hst⟩ | ⟨g, -, hst⟩
        · rw [hst] at hr
          cases hr
          exact Or.inl ⟨q, e, rfl, hc, he, rfl⟩
        · rw [hst] at hr; cases hr
      | joined k =>
        rcases step_joined i (after σ n).tree k with ⟨v, -, hst⟩ | hst | hst
        · rw [hst] at hr; cases hr
        · rw [hst] at hr; cases hr
        · rw [hst] at hr; cases hr
      | asking k => cases hr
      | check g v =>
        right; right
        have hr' : (after σ n).tree.confirm g v = r := by cases hr; rfl
        exact ⟨g, v, rfl, hc, hr'.symm, by rw [hs]; rfl⟩
  | answer i a =>
    have hs := after_succ σ hm
    unfold move at hs
    simp only at hs
    split at hs
    · exact absurd hs hstay
    · next c' hc' =>
      obtain ⟨rfl, hr⟩ := hmine _ _ _ hs
      cases hc.symm.trans hc'
      cases c with
      | asking k =>
        rcases answered_asking (after σ n).tree k a with ⟨_, -, hst⟩ | ⟨e, rfl, hst⟩
        · rw [hst] at hr; cases hr
        · rw [hst] at hr
          cases hr
          exact Or.inr (Or.inl ⟨k, e, ⟨hm, hc⟩, rfl⟩)
      | start q => cases hr
      | joined k => cases hr
      | check g v => cases hr

/-- **A result is of the generation in which its call took its slot.** -/
theorem returned_ok {n me : Nat} {v : View} (h : Returns σ n me (.ok v)) :
    ∃ j q k, j < n ∧ Takes σ j me q k ∧
      (∀ g, q.generation? = some g → g = k.generation) ∧
      (∀ i, j ≤ i → i ≤ n + 1 → (after σ i).tree.generation = k.generation ∧
        (after σ i).tree.closed = false) ∧
      (∃ b s e k' a, s < e ∧ e < n ∧ k'.key = q.key ∧ Asks σ s b k' ∧ Answers σ e b k' (.ok a) ∧
        (∀ i, s ≤ i → i ≤ e + 1 → (after σ i).tree.generation = k.generation) ∧
        v = View.of k.generation a) := by
  rcases h.cases with ⟨_, _, _, _, _, hr⟩ | ⟨_, _, _, hr⟩ | ⟨g, w, -, hc, hr, htree⟩
  · cases hr
  · cases hr
  obtain ⟨hclosed, hg, rfl⟩ := Tree.confirm_ok hr.symm
  obtain ⟨k, rfl, ⟨j, q, hj, htakes⟩, hfilled⟩ := (provenance n).calls me _ hc
  obtain ⟨b, s, e, k', a, hs, he, hslot, htaken', hasks, hanswers, rfl⟩ := hfilled
  obtain ⟨hallow, hkey, -, -⟩ := htakes.ticket
  obtain ⟨-, hgj, hquery⟩ := Tree.allow_ok hallow
  -- the call that asked had a ticket of the same slot
  have htaken : Taken σ n me k := ⟨j, q, hj, htakes⟩
  obtain ⟨hgen, hkeys⟩ := tickets_agree (htaken'.mono (by omega)) htaken hslot
  obtain ⟨j', q', hj', htakes'⟩ := htaken'
  have hgj' := (Tree.allow_ok htakes'.ticket.1).2.1
  rw [hgen] at hgj'
  -- so its ticket, its question and the answer lie between two moves of one generation
  have hreign : ∀ i₀, (after σ i₀).tree.generation = k.generation → ∀ i, i₀ ≤ i → i ≤ n →
      (after σ i).tree.generation = k.generation := by
    intro i₀ h₀ i hi hin
    rw [generation_between σ hi hin (h₀.trans hg), hg]
  refine ⟨j, q, k, hj, htakes, hquery, ?_, b, s, e, k', a, hs, he, hkeys.trans hkey, hasks, hanswers,
    ?_, by rw [hgen]⟩
  · intro i hji hin
    rcases Nat.lt_or_ge n i with hni | hni
    · have hi : i = n + 1 := by omega
      subst hi
      rw [htree]
      exact ⟨hg.symm, hclosed⟩
    · refine ⟨hreign j hgj.symm i hji hni, ?_⟩
      cases hi : (after σ i).tree.closed with
      | false => rfl
      | true => rw [(before_after σ hni).closed hi] at hclosed; cases hclosed
  · intro i hsi hie
    exact hreign j' hgj'.symm i (by omega) (by omega)

/-- **A handle of another generation is refused, and its call asks nothing.** -/
theorem refused_stale {n me : Nat} {q : Query} {g : Generation} (hm : σ n = .step me)
    (hc : (after σ n).call? me = some (.start q)) (hq : q.generation? = some g)
    (hg : g ≠ (after σ n).tree.generation) :
    Returns σ n me (.error (if (after σ n).tree.closed then .sessionTerminated
      else .staleGeneration g (after σ n).tree.generation)) ∧ ∀ i k, ¬ Asks σ i me k := by
  have hallow := Tree.allow_stale hq hg
  have hs := after_succ σ hm
  simp only [move, hc] at hs
  have hst : (Call.step me (after σ n).tree (.start q)).1 =
      .done (.error (if (after σ n).tree.closed then .sessionTerminated
        else .staleGeneration g (after σ n).tree.generation)) := by
    rcases step_start me (after σ n).tree q with ⟨e, he, hst⟩ | ⟨g', hg', -⟩
    · rw [hallow] at he
      cases he
      rw [hst]
    · rw [hallow] at hg'; cases hg'
  have hdone : (after σ (n + 1)).calls me =
      some (.done (.error (if (after σ n).tree.closed then .sessionTerminated
        else .staleGeneration g (after σ n).tree.generation))) := by
    rw [hs, put_calls, if_pos rfl, hst]
  refine ⟨⟨by rw [hc]; exact Option.some_ne_none _, hdone⟩, fun i k hasks => ?_⟩
  have hplace : (after σ i).place me = 2 := place_of_call? hasks.before
  rcases Nat.lt_or_ge n i with hi | hi
  · have h5 : (after σ (n + 1)).place me = 5 := by unfold place; rw [hdone]; rfl
    have hle : (after σ (n + 1)).place me ≤ (after σ i).place me := place_after hi me
    omega
  · have h1 : (after σ n).place me = 1 := place_of_call? hc
    have hle : (after σ i).place me ≤ (after σ n).place me := place_after hi me
    omega

/-- **A call fails only if the tree refuses its query or its view, or if its own question failed.** -/
theorem returned_error {n me : Nat} {e : DebugError} (h : Returns σ n me (.error e)) :
    (after σ n).tree.Refuses e ∨ ∃ k, Answers σ n me k (.error e) := by
  rcases h.cases with ⟨q, e', -, -, hallow, hr⟩ | ⟨k, e', hans, hr⟩ | ⟨g, v, -, -, hr, -⟩
  · cases hr
    exact Or.inl (Tree.allow_error hallow)
  · cases hr
    exact Or.inr ⟨k, hans⟩
  · exact Or.inl (Tree.confirm_error hr.symm)

/-- **Inspection keeps to one generation.** In every order of moves: a call that succeeds took its slot
at some move `j` in the generation `g` of its ticket, which is that of the handle it was given; the tree
was in `g` and not closed from then until the result was there; the view is that of an answer which was
asked for and given within `g`, and it carries `g`. A call that fails was refused by the tree as it was
then, or its own question failed. A call with a handle of another generation is refused and asks
nothing. -/
theorem inspection_keeps_generation (σ : Nat → Move) :
    (∀ n me v, Returns σ n me (.ok v) → ∃ j q k, j < n ∧ Takes σ j me q k ∧
      (∀ g, q.generation? = some g → g = k.generation) ∧
      (∀ i, j ≤ i → i ≤ n + 1 → (after σ i).tree.generation = k.generation ∧
        (after σ i).tree.closed = false) ∧
      (∃ b s e k' a, s < e ∧ e < n ∧ k'.key = q.key ∧ Asks σ s b k' ∧ Answers σ e b k' (.ok a) ∧
        (∀ i, s ≤ i → i ≤ e + 1 → (after σ i).tree.generation = k.generation) ∧
        v = View.of k.generation a) ∧
      v.Carries k.generation) ∧
    (∀ n me e, Returns σ n me (.error e) →
      (after σ n).tree.Refuses e ∨ ∃ k, Answers σ n me k (.error e)) ∧
    (∀ n me q g, σ n = .step me → (after σ n).call? me = some (.start q) →
      q.generation? = some g → g ≠ (after σ n).tree.generation →
      Returns σ n me (.error (if (after σ n).tree.closed then .sessionTerminated
        else .staleGeneration g (after σ n).tree.generation)) ∧ ∀ i k, ¬ Asks σ i me k) := by
  refine ⟨fun n me v h => ?_, fun n me e h => returned_error h, fun n me q g hm hc hq hg =>
    refused_stale hm hc hq hg⟩
  obtain ⟨j, q, k, hj, htakes, hquery, hreign, hfetch⟩ := returned_ok h
  have hcarries : v.Carries k.generation := by
    obtain ⟨_, _, _, _, a, _, _, _, _, _, _, rfl⟩ := hfetch
    exact View.carries_of k.generation a
  exact ⟨j, q, k, hj, htakes, hquery, hreign, hfetch, hcarries⟩

/-- A pause in which two calls share a question, and the next pause, in which a handle of the first
comes too late. -/
def twoPauses (n : Nat) : Move :=
  [.advance true, .begin 0 (.values ⟨⟨1⟩, 7⟩), .begin 1 (.values ⟨⟨1⟩, 7⟩), .step 0, .step 1, .step 0,
    .answer 0 (.ok (.values [⟨"x", "5", none, 8⟩])), .step 1, .step 1, .advance true,
    .begin 2 (.values ⟨⟨1⟩, 7⟩), .step 2].getD n (.advance true)

theorem inspection_keeps_generation_twoPauses :
    Returns twoPauses 8 1 (.ok (.values [⟨"x", "5", none, some ⟨⟨1⟩, 8⟩⟩])) ∧
    (∃ j q k, j < 8 ∧ Takes twoPauses j 1 q k) ∧
    (∃ b s e k' a, s < e ∧ e < 8 ∧ Asks twoPauses s b k' ∧ Answers twoPauses e b k' (.ok a)) ∧
    Returns twoPauses 11 2 (.error (.staleGeneration ⟨1⟩ ⟨2⟩)) ∧ (∀ i k, ¬ Asks twoPauses i 2 k) ∧
    ((after twoPauses 11).tree.Refuses (.staleGeneration ⟨1⟩ ⟨2⟩) ∨
      ∃ k, Answers twoPauses 11 2 k (.error (.staleGeneration ⟨1⟩ ⟨2⟩))) := by
  have hreturns : Returns twoPauses 8 1 (.ok (.values [⟨"x", "5", none, some ⟨⟨1⟩, 8⟩⟩])) :=
    ⟨Option.some_ne_none _, rfl⟩
  obtain ⟨hok, herror, hstale⟩ := inspection_keeps_generation twoPauses
  obtain ⟨j, q, k, hj, htakes, -, -, ⟨b, s, e, k', a, hs, he, -, hasks, hans, -⟩, -⟩ :=
    hok 8 1 _ hreturns
  obtain ⟨hlate, hsilent⟩ := hstale 11 2 _ ⟨1⟩ rfl rfl rfl (by decide)
  exact ⟨hreturns, ⟨j, q, k, hj, htakes⟩, ⟨b, s, e, k', a, hs, he, hasks, hans⟩, hlate, hsilent,
    herror 11 2 _ hlate⟩

end DebugHost.Inspection
