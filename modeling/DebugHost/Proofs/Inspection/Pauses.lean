import DebugHost.Proofs.Inspection.Slots
import DebugHost.Proofs.Session.Lockstep

/-! # Inspection outside pauses

While the program is not paused, no stack can be asked for, and the frames of earlier stacks are refused,
as their pause is over. What is checked of a handle, though, is its generation and not whether the program
is paused, and every state of a session has a generation. So a handle that is made up for the generation
at hand, as the console does for a group of variables, is good in every state but the last, and the
question goes to the adapter (`Debugger.outside_pauses`). -/

namespace DebugHost

open DebugHost.Session DebugHost.Script DebugHost.Inspection

namespace Debugger

variable {ρ α : Type} {d : Debugger ρ} {me : Nat} {q : Query}

/-! ### What a call does before it first waits -/

/-- A script goes on with what is told of its first action. -/
theorem follow_got {a : Action} {next : a.Reply → Script α} {e : Debugger ρ} {r : a.Reply}
    (h : d.attempt me a = (e, .got r)) : follow me (.act a next) d = follow me (next r) e := by
  rw [follow, h]

/-- A query that the tree refuses fails at once and leaves everything as it is. -/
theorem follow_refused {e : DebugError} (h : d.room.state.tree.allow q = .error e) :
    follow me (inspect q) d = (d, .over (.error e)) := by
  have hjoin : d.attempt me (.join q) = (d, .got (.error e)) := by
    simp only [attempt, Tree.join, h]
    rfl
  exact follow_got hjoin

/-- Only requests go to the writer. -/
theorem queue_attempt (d : Debugger ρ) (me : Nat) {a : Action} (ha : ∀ c v, a ≠ .send c v) :
    (d.attempt me a).1.link.connection.queue = d.link.connection.queue := by
  cases a with
  | send c v => exact absurd rfl (ha c v)
  | response x => simp only [attempt]; split <;> rfl
  | post c => simp only [attempt, post]; split <;> rfl
  | order o => simp only [attempt]; split <;> rfl
  | outcome ticket => simp only [attempt]; split <;> rfl
  | await states deadline =>
    simp only [attempt]
    split
    · rfl
    · split <;> rfl
  | lock => simp only [attempt]; split <;> rfl
  | unlock s => simp only [attempt]; split <;> rfl
  | acquire k => simp only [attempt]; split <;> rfl
  | deliver k r =>
    simp only [attempt]
    rcases d.room.state.tree.deliver k r with ⟨v, tree, woken⟩
    exact congrArg (·.connection.queue) (foldl_signal (d.withTree tree) .slot woken).2
  | _ => rfl

theorem queue_follow {s : Script α} (hs : s.Within fun a => ∀ c v, a ≠ .send c v) (d : Debugger ρ) :
    (follow me s d).1.link.connection.queue = d.link.connection.queue := by
  induction s generalizing d with
  | done a => rfl
  | act a next ih =>
    have hqueue := queue_attempt d me hs.1
    unfold follow
    cases ha : d.attempt me a with
    | mk e o =>
      rw [ha] at hqueue
      cases o with
      | got r => exact (ih r (hs.2 r) e).trans hqueue
      | wait signals deadline => exact hqueue

/-- A request goes to the writer, and what comes after it sends no other. -/
theorem queue_send {command : String} {v : Json.Value}
    {next : Except DebugError Exchange → Script α}
    (hnext : ∀ x, (next (.ok x)).Within fun a => ∀ c v, a ≠ .send c v)
    (hopen : d.link.connection.isClosed = false) :
    (follow me (.act (.send command v) next) d).1.link.connection.queue =
      d.link.connection.queue ++ [.request ⟨d.link.connection.nextSeq, command, v⟩] := by
  obtain ⟨e, x, hsend, hqueue⟩ : ∃ e x, d.attempt me (.send command v) = (e, .got (.ok x)) ∧
      e.link.connection.queue = d.link.connection.queue ++
        [.request ⟨d.link.connection.nextSeq, command, v⟩] := by
    simp only [attempt, send, Connection.send, hopen]
    exact ⟨_, _, rfl, rfl⟩
  rw [follow_got hsend, queue_follow (hnext x), hqueue]

/-- Who is to ask sends the request for his question. -/
theorem follow_fetch (k : Ticket) (hopen : d.link.connection.isClosed = false) :
    (follow me (Script.andThen (do .perform (.deliver k (← fetch k.key))) fun v =>
      .perform (.confirm k.generation v)) d).1.link.connection.queue =
      d.link.connection.queue ++
        [.request ⟨d.link.connection.nextSeq, k.key.command, k.key.arguments⟩] := by
  rw [fetch_eq]
  refine queue_send (fun x => ?_) hopen
  have hanswer : (answerOf x).Within fun a => ∀ c v, a ≠ .send c v :=
    Within.bind (within_perform fun c v h => by cases h) fun _ => within_perform fun c v h => by cases h
  have hread : (answerOf x >>= fun r => Script.done (r.bind k.key.reading)).Within
      fun a => ∀ c v, a ≠ .send c v := Within.bind hanswer fun _ => trivial
  exact Within.andThen (Within.bind hread fun r => within_perform fun c v h => by cases h) fun v =>
    within_perform fun c v h => by cases h

/-- The question of a query that the tree allows, and for which there is no slot, goes to the adapter. -/
theorem follow_asks {g : Generation} (hallow : d.room.state.tree.allow q = .ok g)
    (hnew : ∀ i, (q.key, i) ∉ d.room.state.tree.cache) (hopen : d.link.connection.isClosed = false) :
    (follow me (inspect q) d).1.link.connection.queue = d.link.connection.queue ++
      [.request ⟨d.link.connection.nextSeq, q.key.command, q.key.arguments⟩] := by
  have hnone : d.room.state.tree.cache.find? (·.1 == q.key) = none :=
    List.find?_eq_none.mpr fun p hp he => hnew p.2 (eq_of_beq he ▸ hp)
  have hslot : (d.room.state.tree.slotFor q.key).1 = d.room.state.tree.slots.length := by
    simp only [Tree.slotFor, hnone]
  have hempty : (d.room.state.tree.slotFor q.key).2.slot d.room.state.tree.slots.length = {} := by
    rw [Tree.slot_slotFor, Tree.slot, List.getD_eq_getElem?_getD,
      List.getElem?_eq_none (Nat.le_refl _)]
    rfl
  -- the slot is new, so that it is this call's turn to ask
  generalize hk : (⟨g, q.key, (d.room.state.tree.slotFor q.key).1⟩ : Ticket) = k
  have hjoin : d.attempt me (.join q) =
      (d.withTree (d.room.state.tree.slotFor q.key).2, .got (.ok k)) := by
    simp only [attempt, Tree.join, hallow, ← hk]
  generalize (d.room.state.tree.slotFor q.key).2 = t at hempty hjoin
  have hacquire : (d.withTree t).attempt me (.acquire k) =
      ((d.withTree t).withTree (t.acquire me k).2, .got none) := by
    have hmine : (t.acquire me k).1 = .mine := by
      rw [← hk]
      refine Tree.acquire_mine ?_ (.inl ?_)
      · rw [hslot, hempty]
      · rw [hslot, hempty]
    simp only [attempt]
    rw [show (d.withTree t).room.state.tree = t from rfl]
    generalize t.acquire me k = w at hmine
    obtain ⟨s, t'⟩ := w
    cases hmine
    rfl
  have hkey : k.key = q.key := by rw [← hk]
  have hsteps : follow me (inspect q) d = follow me (Script.andThen
      (do .perform (.deliver k (← fetch k.key))) fun v => .perform (.confirm k.generation v))
      ((d.withTree t).withTree (t.acquire me k).2) :=
    (follow_got hjoin).trans (follow_got hacquire)
  rw [hsteps, ← hkey]
  exact follow_fetch (d := (d.withTree t).withTree (t.acquire me k).2) k hopen

/-! ### Which handles are of the generation at hand -/

/-- While the generation stays, so does the status. -/
theorem session_same {σ : Nat → Move ρ} (h : Lockstep d.room.state) {i j : Nat} (hij : i ≤ j)
    (hg : (d.session σ i).status.generation = (d.session σ j).status.generation) :
    (d.session σ j).status = (d.session σ i).status := by
  induction hij with
  | refl => rfl
  | @step j hij ih =>
    have hle := (session_mono (σ := σ) h hij).1
    cases he : d.entered? σ j with
    | none =>
      have hstays := session_stays he
      rw [hstays]
      exact ih (by rw [hg, hstays])
    | some st =>
      -- otherwise the generation would have risen
      have hnext := (session_entered h he).2.1
      rw [hg, hnext] at hle
      exact absurd hle (Nat.not_le_of_lt (Nat.lt_succ_self _))

/-! ### Any state -/

/-- What becomes of the calls that inspect a program which is not paused. -/
structure Unpaused (e : Debugger ρ) (me : Nat) : Prop where
  /-- A stack cannot be asked for. -/
  stack : ∀ thread, follow me (inspect (.stackTrace thread)) e =
    (e, .over (.error (if e.Over then .sessionTerminated else .notPaused)))
  /-- A handle of another generation is refused. -/
  stale : ∀ q g, q.generation? = some g → g ≠ e.room.state.status.generation →
    follow me (inspect q) e = (e, .over (.error (if e.Over then .sessionTerminated
      else .staleGeneration g e.room.state.status.generation)))
  /-- After the end everything is refused. -/
  ended : e.Over → ∀ q, follow me (inspect q) e = (e, .over (.error .sessionTerminated))
  /-- Before it, the question of a handle of the generation at hand goes to the adapter, unless it has
  been put before. -/
  current : ¬ e.Over → e.link.connection.isClosed = false → ∀ q,
    q.generation? = some e.room.state.status.generation →
    (∀ i, (q.key, i) ∉ e.room.state.tree.cache) →
    (follow me (inspect q) e).1.link.connection.queue = e.link.connection.queue ++
      [.request ⟨e.link.connection.nextSeq, q.key.command, q.key.arguments⟩]

theorem unpaused {e : Debugger ρ} (h : Lockstep e.room.state)
    (hp : e.room.state.status.state ≠ .paused) (me : Nat) : Unpaused e me := by
  have hclosed : e.room.state.tree.closed = decide e.Over := by
    by_cases ho : e.Over
    · rw [decide_eq_true ho]; exact h.closed.mpr ho
    · rw [decide_eq_false ho]
      cases hc : e.room.state.tree.closed with
      | false => rfl
      | true => exact absurd (h.closed.mp hc) ho
  have hpaused : e.room.state.tree.paused = false := by
    cases hb : e.room.state.tree.paused with
    | false => rfl
    | true => exact absurd (h.paused.mp hb) hp
  refine ⟨fun thread => ?_, fun q g hq hg => ?_, fun ho q => ?_, fun ho hopen q hq hnew => ?_⟩
  · refine follow_refused ?_
    simp only [Tree.allow, hclosed, hpaused]
    by_cases ho : e.Over <;> simp [ho]
  · refine follow_refused ((Tree.allow_stale hq (h.generation ▸ hg)).trans ?_)
    rw [hclosed, ← h.generation]
    by_cases ho : e.Over <;> simp [ho]
  · refine follow_refused ?_
    have hc : e.room.state.tree.closed = true := by rw [hclosed, decide_eq_true ho]
    cases q <;> simp [Tree.allow, Tree.checkCurrent, hc, Except.map]
  · have hc : e.room.state.tree.closed = false := by rw [hclosed, decide_eq_false ho]
    refine follow_asks (g := e.room.state.status.generation) ?_ hnew hopen
    cases q with
    | stackTrace thread => cases hq
    | scopes frame =>
      simp only [Query.generation?, Option.some.injEq] at hq
      simp only [Tree.allow, Tree.checkCurrent, hc, hq, h.generation]
      rfl
    | values reference =>
      simp only [Query.generation?, Option.some.injEq] at hq
      simp only [Tree.allow, Tree.checkCurrent, hc, hq, h.generation]
      rfl

/-- **Inspection outside pauses.** In every order of moves from the beginning of a session on, while the
program is not paused: a stack cannot be asked for; handles of other generations are refused, and so are
the frames of every stack that could be asked for before, as none of them is of the generation at hand; but
a handle of this generation is good until the session ends, and its question goes to the adapter. -/
theorem outside_pauses (d : Debugger ρ) (id : SessionId) (attached : Bool) (σ : Nat → Move ρ) (n : Nat)
    (hp : ((d.fresh id attached).session σ n).status.state ≠ .paused) :
    (∀ me, Unpaused ((d.fresh id attached).after σ n) me) ∧
    ∀ i ≤ n, ∀ thread g, ((d.fresh id attached).session σ i).tree.allow (.stackTrace thread) = .ok g →
      g ≠ ((d.fresh id attached).session σ n).status.generation := by
  have h := lockstep_fresh d id attached
  have hi := lockstep_after (σ := σ) h
  refine ⟨unpaused (hi n) hp, fun i hin thread g hallow hg => ?_⟩
  have hpaused : ((d.fresh id attached).session σ i).tree.paused = true := by
    simp only [Tree.allow] at hallow
    split_ifs at hallow with hc hpaused
    exact hpaused
  obtain ⟨-, hgi, -⟩ := Tree.allow_ok hallow
  have hsame := session_same h hin ((hi i).generation.trans (hgi.symm.trans hg))
  exact hp (hsame ▸ (hi i).paused.mp hpaused)

/-- A program that has stopped and goes on. -/
def goesOn (n : Nat) : Move Unit :=
  [.input (stoppedAt 1), .input (.command (.order (.resume .continue 1) 0))].getD n .read

/-- The stack of the stop cannot be asked for any more, but variables can, of the generation that is not
that of a stop. -/
theorem outside_pauses_goesOn :
    (begun.session goesOn 2).status.state = .running ∧
    follow 3 (inspect (.stackTrace 1)) (begun.after goesOn 2) =
      (begun.after goesOn 2, .over (.error .notPaused)) ∧
    (begun.session goesOn 1).tree.allow (.stackTrace 1) = .ok ⟨1⟩ ∧
    (begun.session goesOn 2).status.generation = ⟨2⟩ ∧
    (follow 3 (inspect (.values ⟨⟨2⟩, 7⟩)) (begun.after goesOn 2)).1.link.connection.queue =
      (begun.after goesOn 2).link.connection.queue ++
        [.request ⟨2, "variables", (Key.values 7).arguments⟩] := by
  have hstate : (begun.session goesOn 2).status.state = .running := rfl
  have hopen : (begun.after goesOn 2).link.connection.isClosed = false := rfl
  obtain ⟨hunpaused, hstacks⟩ := outside_pauses { link := .start ⟨5000⟩ } ⟨1⟩ true goesOn 2
    (by show (begun.session goesOn 2).status.state ≠ .paused; rw [hstate]; decide)
  refine ⟨hstate, (hunpaused 3).stack 1, rfl, rfl, ?_⟩
  have hgoing : ¬ (begun.after goesOn 2).Over := by
    show (begun.session goesOn 2).status.state ≠ .terminated
    rw [hstate]
    decide
  exact (hunpaused 3).current hgoing hopen (.values ⟨⟨2⟩, 7⟩) rfl fun i hi => by cases hi

end Debugger
end DebugHost
