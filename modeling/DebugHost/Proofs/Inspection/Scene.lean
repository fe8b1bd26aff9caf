import DebugHost.Inspection.Desk
import DebugHost.Proofs.Inspection.Tree
import DebugHost.Proofs.Orders
import Mathlib.Logic.Function.Basic

/-! # Calls in any order

A scene is a tree with the calls that use it. It changes by moves: a call begins, a call goes through
its next critical section, an answer of the adapter reaches a call, a new generation starts, the tree
is shut. Closing a tree is two moves, `advance` and `shut`, between which other moves may come. A
schedule gives the moves one after the other, and `Scene.after` the scene that they lead to; a move of
a call that cannot make it changes nothing, so that every order of moves is a schedule.

A desk lets its calls go on as far as they can, in the order in which they became able to. Whatever it
does is a sequence of moves of a scene with the same tree and the same calls (`Shows`), in which a call
that is over has the result that the desk has noted for it. -/

namespace DebugHost.Inspection

/-- The call that goes on after a turn, unless it is over. -/
def Turn.call? : Turn → Option Call
  | .go c => some c
  | .wait c => some c
  | .ask c _ => some c
  | .done _ => none

/-- A tree and its calls by number, each with what its last move led to. -/
structure Scene where
  tree : Tree := {}
  calls : Nat → Option Turn := fun _ => none

/-- What may happen next. -/
inductive Move where
  /-- A call begins, under a number that no other call has had. -/
  | begin (me : Nat) (q : Query)
  /-- A call goes through its next critical section. -/
  | step (me : Nat)
  /-- The adapter's answer reaches a call. -/
  | answer (me : Nat) (r : Except DebugError Answer)
  | advance (paused : Bool)
  | shut

namespace Scene

/-- The call `me`, if it is under way. -/
def call? (x : Scene) (me : Nat) : Option Call := (x.calls me).bind Turn.call?

/-- Takes over what a move of the call `me` led to. -/
def put (x : Scene) (me : Nat) (t : Turn) (tree : Tree) : Scene :=
  ⟨tree, Function.update x.calls me (some t)⟩

/-- The scene after a move. -/
def move (x : Scene) : Move → Scene
  | .begin me q =>
    match x.calls me with
    | none => x.put me (.go (.start q)) x.tree
    | some _ => x
  | .step me =>
    match x.call? me with
    | none => x
    | some c => x.put me (c.step me x.tree).1 (c.step me x.tree).2
  | .answer me r =>
    match x.call? me with
    | none => x
    | some c => x.put me (c.answered x.tree r).1 (c.answered x.tree r).2.1
  | .advance paused => { x with tree := x.tree.advance paused }
  | .shut => { x with tree := x.tree.shut }

/-- The scene after the first `n` moves of a schedule. -/
def after (σ : Nat → Move) (n : Nat) : Scene := reached move {} σ n

/-- The calls after a move of the call `me`. -/
theorem put_calls (x : Scene) (me i : Nat) (t : Turn) (tree : Tree) :
    (x.put me t tree).calls i = if i = me then some t else x.calls i := by
  exact Function.update_apply ..

theorem put_call? (x : Scene) (me i : Nat) (t : Turn) (tree : Tree) :
    (x.put me t tree).call? i = if i = me then t.call? else x.call? i := by
  unfold call?
  rw [put_calls]
  split <;> rfl

end Scene

open Scene

/-! ### What a call does in a schedule

The moves of a schedule are numbered: move `n` leads from `after σ n` to `after σ (n + 1)`. -/

variable (σ : Nat → Move)

theorem after_succ {n : Nat} {m : Move} (h : σ n = m) :
    after σ (n + 1) = (after σ n).move m := by rw [← h]; rfl

/-- In move `n` the call `me` takes a slot for the query `q`. -/
structure Takes (n me : Nat) (q : Query) (k : Ticket) : Prop where
  step : σ n = .step me
  before : (after σ n).call? me = some (.start q)
  then_ : (after σ (n + 1)).call? me = some (.joined k)

/-- In move `n` the call `me` asks the adapter. -/
structure Asks (n me : Nat) (k : Ticket) : Prop where
  step : σ n = .step me
  before : (after σ n).call? me = some (.joined k)
  then_ : (after σ (n + 1)).call? me = some (.asking k)

/-- In move `n` the adapter answers the call `me`, which has asked. -/
structure Answers (n me : Nat) (k : Ticket) (r : Except DebugError Answer) : Prop where
  step : σ n = .answer me r
  before : (after σ n).call? me = some (.asking k)

/-- In move `n` the call `me` comes to its result. -/
structure Returns (n me : Nat) (r : Except DebugError View) : Prop where
  before : (after σ n).call? me ≠ none
  then_ : (after σ (n + 1)).calls me = some (.done r)

/-! ### What a move does

`step_start` to `answered_asking` say all that a call can do, one for each of its places. -/

theorem step_start (me : Nat) (t : Tree) (q : Query) :
    (∃ e, t.allow q = .error e ∧ Call.step me t (.start q) = (.done (.error e), t)) ∨
    ∃ g, t.allow q = .ok g ∧ Call.step me t (.start q) =
      (.go (.joined ⟨g, q.key, (t.slotFor q.key).1⟩), (t.slotFor q.key).2) := by
  cases h : t.allow q with
  | error e =>
    left
    exact ⟨e, rfl, by simp only [Call.step, Tree.join, h]⟩
  | ok g =>
    right
    exact ⟨g, rfl, by simp only [Call.step, Tree.join, h]⟩

theorem step_joined (me : Nat) (t : Tree) (k : Ticket) :
    (∃ v, (t.slot k.slot).value = some v ∧
      Call.step me t (.joined k) = (.go (.check k.generation v), t)) ∨
    Call.step me t (.joined k) = (.ask (.asking k) k.key, (t.acquire me k).2) ∨
    Call.step me t (.joined k) = (.wait (.joined k), (t.acquire me k).2) := by
  cases hv : (t.slot k.slot).value with
  | some v =>
    left
    exact ⟨v, rfl, by simp only [Call.step, Tree.acquire, hv]⟩
  | none =>
    right
    cases hh : (t.slot k.slot).holder with
    | none =>
      left
      simp only [Call.step, Tree.acquire, hv, hh]
    | some h =>
      by_cases hm : h = me
      · left
        simp only [Call.step, Tree.acquire, hv, hh, if_pos hm]
      · right
        simp only [Call.step, Tree.acquire, hv, hh, if_neg hm]

theorem answered_asking (t : Tree) (k : Ticket) (r : Except DebugError Answer) :
    (∃ a, r = .ok a ∧ (Call.answered t r (.asking k)).1 = .go (.check k.generation (.of k.generation a))) ∨
    ∃ e, r = .error e ∧ (Call.answered t r (.asking k)).1 = .done (.error e) := by
  cases r with
  | ok a => exact Or.inl ⟨a, rfl, rfl⟩
  | error e => exact Or.inr ⟨e, rfl, rfl⟩

theorem answered_tree (t : Tree) (k : Ticket) (r : Except DebugError Answer) :
    (Call.answered t r (.asking k)).2.1 = (t.deliver k r).2.1 := by
  cases r <;> rfl

/-! ### Generations only rise -/

theorem alike_step (me : Nat) (t : Tree) (c : Call) : t.Alike (c.step me t).2 := by
  cases c with
  | start q =>
    rcases step_start me t q with ⟨e, -, h⟩ | ⟨g, -, h⟩
    · rw [h]; exact Tree.Alike.refl t
    · rw [h]; exact t.alike_slotFor q.key
  | joined k =>
    rcases step_joined me t k with ⟨v, -, h⟩ | h | h
    · rw [h]; exact Tree.Alike.refl t
    · rw [h]; exact (t.sameSlots_acquire me k).toAlike
    · rw [h]; exact (t.sameSlots_acquire me k).toAlike
  | asking k => exact Tree.Alike.refl t
  | check g v => exact Tree.Alike.refl t

theorem sameSlots_answered (t : Tree) (r : Except DebugError Answer) (c : Call) :
    t.SameSlots (c.answered t r).2.1 := by
  cases c with
  | asking k => rw [answered_tree]; exact t.sameSlots_deliver k r
  | start q => exact Tree.SameSlots.refl t
  | joined k => exact Tree.SameSlots.refl t
  | check g v => exact Tree.SameSlots.refl t

/-- What later trees know of an earlier one: its generation has not come again, and it is closed for
good. -/
structure Tree.Before (t t' : Tree) : Prop where
  number : t.generation.number ≤ t'.generation.number
  closed : t.closed = true → t'.closed = true

theorem Tree.Alike.before {t t' : Tree} (h : t.Alike t') : t.Before t' :=
  ⟨Nat.le_of_eq (by rw [h.generation]), fun hc => by rw [h.closed, hc]⟩

theorem Tree.Before.trans {t t' t'' : Tree} (h : t.Before t') (h' : t'.Before t'') :
    t.Before t'' :=
  ⟨Nat.le_trans h.number h'.number, fun hc => h'.closed (h.closed hc)⟩

theorem before_move (x : Scene) (m : Move) : x.tree.Before (x.move m).tree := by
  cases m with
  | begin me q =>
    unfold move
    simp only
    split
    · exact (Tree.Alike.refl _).before
    · exact (Tree.Alike.refl _).before
  | step me =>
    unfold move
    simp only
    split
    · exact (Tree.Alike.refl _).before
    · exact (alike_step me _ _).before
  | answer me r =>
    unfold move
    simp only
    split
    · exact (Tree.Alike.refl _).before
    · exact (sameSlots_answered _ r _).toAlike.before
  | advance paused => exact ⟨Nat.le_succ _, fun h => h⟩
  | shut => exact ⟨Nat.le_refl _, fun _ => rfl⟩

theorem before_after {i j : Nat} (h : i ≤ j) : (after σ i).tree.Before (after σ j).tree := by
  induction h with
  | refl => exact (Tree.Alike.refl _).before
  | step _ ih => exact ih.trans (before_move _ _)

/-- Between two scenes of one generation lies no other generation. -/
theorem generation_between {i m j : Nat} (him : i ≤ m) (hmj : m ≤ j)
    (h : (after σ i).tree.generation = (after σ j).tree.generation) :
    (after σ m).tree.generation = (after σ j).tree.generation := by
  have h1 := (before_after σ him).number
  have h2 := (before_after σ hmj).number
  rw [h] at h1
  have h3 := Nat.le_antisymm h2 h1
  cases hm : (after σ m).tree.generation
  cases hj : (after σ j).tree.generation
  rw [hm, hj] at h3
  exact congrArg Generation.mk h3

/-! ### The runs of a desk are orders of moves -/

/-- The call `me` of a desk, if it is under way. -/
def Desk.call? (d : Desk) (me : Nat) : Option Call := (d.calls.find? (·.1 == me)).map (·.2)

/-- A desk and a scene with the same tree, the same calls under way and the same results. -/
structure Shows (d : Desk) (x : Scene) : Prop where
  tree : d.tree = x.tree
  calls : ∀ me, d.call? me = x.call? me
  finished : ∀ me r, (me, r) ∈ d.finished → x.calls me = some (.done r)

/-- Moves lead from one scene to another. -/
abbrev Scene.Leads (x x' : Scene) : Prop := DebugHost.Leads move x x'

/-! ### One turn -/

theorem find_other {l : List (Nat × Call)} {me i : Nat} (h : i ≠ me) :
    (l.filter (·.1 != me)).find? (·.1 == i) = l.find? (·.1 == i) := by
  rw [List.find?_filter]
  congr 1
  funext p
  by_cases hp : p.1 = i
  · simp [hp, h]
  · simp [hp]

theorem find_removed (l : List (Nat × Call)) (me : Nat) :
    (l.filter (·.1 != me)).find? (·.1 == me) = none := by
  rw [List.find?_filter, List.find?_eq_none]
  intro p _
  by_cases hp : p.1 = me
  · simp [hp]
  · simp [hp]

theorem call?_put (d : Desk) (me i : Nat) (c : Call) :
    (d.put me c).call? i = if i = me then some c else d.call? i := by
  unfold Desk.call? Desk.put
  simp only [List.find?_append]
  split
  · next h => rw [h, find_removed]; simp
  · next h =>
    rw [find_other h]
    have hne : (me == i) = false := by simpa using fun hm : me = i => h hm.symm
    simp [hne]

/-- A call that goes on stands at the same place of the desk and of the scene. -/
theorem shows_put {d d' : Desk} {x : Scene} (h : Shows d x) {me : Nat} {c : Call} {t : Turn}
    (ht : t.call? = some c) (hme : ∀ r, x.calls me ≠ some (.done r))
    (hcalls : d'.calls = (d.put me c).calls) (hfinished : d'.finished = d.finished) :
    Shows d' (x.put me t d'.tree) where
  tree := rfl
  calls := by
    intro i
    have hd : d'.call? i = (d.put me c).call? i := by unfold Desk.call?; rw [hcalls]
    rw [hd, call?_put, put_call?, ht, h.calls i]
  finished := by
    intro i r hr
    rw [hfinished] at hr
    have hi := h.finished i r hr
    rw [put_calls, if_neg fun him => hme r (by rw [← him]; exact hi)]
    exact hi

theorem not_done_of_call? {x : Scene} {me : Nat} {c : Call} (hc : x.call? me = some c)
    (r : Except DebugError View) : x.calls me ≠ some (.done r) := by
  intro hr
  unfold call? at hc
  rw [hr] at hc
  cases hc

/-- What a desk notes of a turn of a call under way is what becomes of the scene. -/
theorem shows_note {d : Desk} {x : Scene} (h : Shows d x) {me : Nat} {c : Call}
    (hc : x.call? me = some c) (t : Turn) (tree : Tree) :
    Shows (({ d with tree := tree } : Desk).note me t).1 (x.put me t tree) := by
  have hme := not_done_of_call? hc
  cases t with
  | go c' => exact shows_put h rfl hme rfl rfl
  | wait c' => exact shows_put h rfl hme rfl rfl
  | ask c' k => exact shows_put h rfl hme rfl rfl
  | done r =>
    refine ⟨rfl, fun i => ?_, fun i r' hr => ?_⟩
    · show ((d.calls.filter (·.1 != me)).find? (·.1 == i)).map (·.2) = _
      rw [put_call?]
      split
      · next hi => rw [hi, find_removed]; rfl
      · next hi => rw [find_other hi]; exact h.calls i
    · rcases List.mem_append.mp hr with hr | hr
      · have hi := h.finished i r' hr
        rw [put_calls, if_neg fun him => hme r' (by rw [← him]; exact hi)]
        exact hi
      · cases List.mem_singleton.mp hr
        rw [put_calls, if_pos rfl]

/-! ### Runs -/

/-- **What a desk does by itself is a sequence of moves.** -/
theorem shows_run (fuel : Nat) {ready : List Nat} {d : Desk} {x : Scene} (h : Shows d x) :
    ∃ x', x.Leads x' ∧ Shows (Desk.run fuel ready d) x' := by
  induction fuel generalizing ready d x with
  | zero => exact ⟨x, .refl, h⟩
  | succ fuel ih =>
    cases ready with
    | nil => exact ⟨x, .refl, h⟩
    | cons me rest =>
      unfold Desk.run
      split
      · exact ih h
      · next i c hf =>
        have hc : x.call? me = some c := by
          rw [← h.calls me, Desk.call?, hf]
          rfl
        have hmove : x.move (.step me) = x.put me (c.step me d.tree).1 (c.step me d.tree).2 := by
          simp only [move, hc, h.tree]
        have hnote := shows_note h hc (c.step me d.tree).1 (c.step me d.tree).2
        obtain ⟨x', hx', hs⟩ := ih hnote
        refine ⟨x', ?_, hs⟩
        rw [← hmove] at hx'
        exact (DebugHost.Leads.one x (.step me)).trans hx'

variable {d : Desk} {x : Scene}

/-- A call may begin under any number that was not used before. -/
theorem shows_ask (h : Shows d x) {me : Nat} (hme : x.calls me = none) (q : Query) :
    ∃ x', x.Leads x' ∧ Shows (d.ask me q) x' := by
  have hmove : x.move (.begin me q) = x.put me (.go (.start q)) x.tree := by
    simp only [move, hme]
  have hput : Shows (d.put me (.start q)) (x.put me (.go (.start q)) d.tree) :=
    shows_put h rfl (fun r hr => by rw [hme] at hr; cases hr) rfl rfl
  obtain ⟨x', hx', hs⟩ : ∃ x', Scene.Leads _ x' ∧ Shows (d.ask me q) x' := shows_run _ hput
  refine ⟨x', ?_, hs⟩
  rw [h.tree, ← hmove] at hx'
  exact (DebugHost.Leads.one x (.begin me q)).trans hx'

theorem shows_answer (h : Shows d x) (n : Nat) (r : Except DebugError Answer) :
    ∃ x', x.Leads x' ∧ Shows (d.answer n r) x' := by
  unfold Desk.answer
  split
  · exact ⟨x, .refl, h⟩
  · next q _ =>
    simp only
    split
    · exact ⟨x, .refl, h.tree, h.calls, h.finished⟩
    · next i c hf =>
      have hc : x.call? q.call = some c := by
        rw [← h.calls q.call, Desk.call?, hf]
        rfl
      have hmove : x.move (.answer q.call r) =
          x.put q.call (c.answered d.tree r).1 (c.answered d.tree r).2.1 := by
        simp only [move, hc, h.tree]
      have hasked : Shows { d with questions := d.questions.set n { q with unanswered := false } } x :=
        ⟨h.tree, h.calls, h.finished⟩
      have hnote := shows_note hasked hc (c.answered d.tree r).1 (c.answered d.tree r).2.1
      obtain ⟨x', hx', hs⟩ := shows_run _ hnote
      refine ⟨x', ?_, hs⟩
      rw [← hmove] at hx'
      exact (DebugHost.Leads.one x (.answer q.call r)).trans hx'

theorem shows_advance (h : Shows d x) (paused : Bool) :
    Shows (d.advance paused) (x.move (.advance paused)) :=
  ⟨congrArg (Tree.advance · paused) h.tree, h.calls, h.finished⟩

/-- Closing a desk is two moves with nothing in between. -/
theorem shows_close (h : Shows d x) : Shows d.close ((x.move (.advance false)).move .shut) :=
  ⟨congrArg Tree.close h.tree, h.calls, h.finished⟩

/-! ### Results -/

/-- Only a call under way comes to a result. -/
theorem move_done {me : Nat} {m : Move} {r : Except DebugError View} (hc : x.call? me = none)
    (h : (x.move m).calls me = some (.done r)) : x.calls me = some (.done r) := by
  have hput : ∀ i t tree, (x.put i t tree).calls me = some (.done r) → i ≠ me →
      x.calls me = some (.done r) := by
    intro i t tree hi hne
    rwa [put_calls, if_neg fun he => hne he.symm] at hi
  have hstep : ∀ i c, x.call? i = some c → i ≠ me := by
    intro i c hi he
    rw [he, hc] at hi
    cases hi
  cases m with
  | begin i q =>
    unfold move at h
    simp only at h
    split at h
    · by_cases hi : i = me
      · subst hi
        rw [put_calls, if_pos rfl] at h
        cases h
      · exact hput _ _ _ h hi
    · exact h
  | step i =>
    unfold move at h
    simp only at h
    split at h
    · exact h
    · next c hi => exact hput _ _ _ h (hstep i c hi)
  | answer i a =>
    unfold move at h
    simp only at h
    split at h
    · exact h
    · next c hi => exact hput _ _ _ h (hstep i c hi)
  | advance paused => exact h
  | shut => exact h

/-- **A result that a desk has noted is one to which the call came in some move.** -/
theorem Shows.returns {σ : Nat → Move} {n me : Nat} {r : Except DebugError View}
    (h : Shows d (after σ n)) (hr : (me, r) ∈ d.finished) : ∃ k < n, Returns σ k me r := by
  have hdone := h.finished me r hr
  clear h hr
  induction n with
  | zero => cases hdone
  | succ n ih =>
    by_cases hc : (after σ n).call? me = none
    · obtain ⟨k, hk, hret⟩ := ih (move_done hc hdone)
      exact ⟨k, Nat.lt_succ_of_lt hk, hret⟩
    · exact ⟨n, Nat.lt_succ_self n, hc, hdone⟩

end DebugHost.Inspection
