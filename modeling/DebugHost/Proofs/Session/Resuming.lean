import DebugHost.Proofs.Session.Lockstep

/-! # One resume for each pause

Users let the program go on by commands that any number of them may give. The session turns such a
command into a request only while the program is paused, and leaves the pause with it
(`Debugger.Resumes`), so that before the next one the program has to be paused anew
(`Debugger.PausesAnew`): by an event of the adapter, or by the failure of a resume since which nothing
has happened. -/

namespace DebugHost

open DebugHost.Session

/-- Only events of that name tell that the program has stopped. -/
theorem Event.name_of_stopped {e : Event} (h : e.kind = .stopped) : e.event = "stopped" := by
  unfold Event.kind EventKind.ofName at h
  split at h <;> first | assumption | cases h

namespace Session.State

variable {s : State} {c : Connection} {i : Input} {o : Outcome}

/-! ### One step -/

/-- What makes a session enter a pause. -/
theorem entered_paused (he : s.entered? c i = some .paused) :
    (∃ e, i = .event e ∧ e.event = "stopped") ∨
    ∃ error ticket, i = .command (.resumeFailed s.epoch error ticket) ∧
      s.status.state = .running := by
  cases i with
  | event e =>
    left
    refine ⟨e, rfl, ?_⟩
    simp only [entered?] at he
    split at he
    · split at he <;> cases he
    · next hk => exact Event.name_of_stopped hk
    · split at he <;> cases he
    · cases he
    · cases he
    · cases he
  | closed reason => cases he
  | command cmd =>
    right
    cases cmd with
    | order o ticket =>
      cases o with
      | resume kind thread => simp only [entered?] at he; split at he <;> cases he
      | stopping => cases he
      | terminate cause => cases he
    | resumeFailed epoch error ticket =>
      simp only [entered?] at he
      split at he
      · next h => exact ⟨error, ticket, by rw [h.1], h.2⟩
      · cases he
    | configured => simp only [entered?] at he; split at he <;> cases he
    | exited e => cases he

/-- A session adds to the queue only the requests of resumes. -/
theorem handles_queue (h : Handles s c i o) :
    o.connection.queue = c.queue ∨
    ∃ kind thread ticket, i = .command (.order (.resume kind thread) ticket) ∧
      o.connection = c.resumed kind thread := by
  cases h with
  | stays _ _ hc => rw [hc]; exact Or.inl rfl
  | enters _ _ _ _ _ hc => rw [hc]; exact Or.inl rfl
  | resumes kind thread ticket hi _ _ _ hc => exact Or.inr ⟨kind, thread, ticket, hi, hc⟩
  | ends _ _ _ _ hc => rw [hc]; exact Or.inl rfl

/-- A resume is sent from a pause and over an open connection, and changes nothing otherwise. -/
theorem handles_resumed {kind : StepKind} {thread : Int} {ticket : Nat}
    (h : Handles s c (.command (.order (.resume kind thread) ticket)) o) :
    (s.status.state = .paused ∧ c.isClosed = false ∧ o.state.status.state = .running ∧
      o.connection = c.resumed kind thread) ∨
    (¬ (s.status.state = .paused ∧ c.isClosed = false) ∧ o.state = s ∧ o.connection = c) := by
  cases h with
  | stays hi hs hc =>
    right
    refine ⟨fun hp => ?_, hs, hc⟩
    simp only [entered?, if_pos hp] at hi
    cases hi
  | enters _ _ _ hother => exact absurd rfl (hother kind thread ticket)
  | resumes kind' thread' ticket' hi hp ho hs hc =>
    cases hi
    exact Or.inl ⟨hp, ho, by rw [hs]; rfl, hc⟩
  | ends _ _ hw => cases hw

end Session.State

namespace Debugger

variable {ρ : Type}

/-! ### Any order of moves -/

/-- In move `n` the session puts the request of a resume at the end of the queue. -/
structure Resumes (d : Debugger ρ) (σ : Nat → Move ρ) (n : Nat) (kind : StepKind) (thread : Int) :
    Prop where
  given : ∃ ticket, σ n = .input (.command (.order (.resume kind thread) ticket))
  sent : (d.after σ (n + 1)).link.connection.queue = (d.after σ n).link.connection.queue ++
    [.request ⟨(d.after σ n).link.connection.nextSeq, kind.command,
      (Json.Typed.write (ThreadArguments.mk thread)).canonical⟩]

/-- In move `n` the session comes into a pause, as the program has stopped or as a resume failed since
which it has noted nothing. -/
structure PausesAnew (d : Debugger ρ) (σ : Nat → Move ρ) (n : Nat) : Prop where
  before : (d.session σ n).status.state ≠ .paused
  then_ : (d.session σ (n + 1)).status.state = .paused
  why : (∃ e, σ n = .input (.event e) ∧ e.event = "stopped") ∨
    ∃ error ticket, σ n = .input (.command (.resumeFailed (d.session σ n).epoch error ticket)) ∧
      (d.session σ n).status.state = .running

variable {d : Debugger ρ} {σ : Nat → Move ρ}

/-- A command to resume is sent, or it changes nothing. -/
theorem resumes_or {n : Nat} {kind : StepKind} {thread : Int} {ticket : Nat}
    (hg : σ n = .input (.command (.order (.resume kind thread) ticket))) :
    (d.Resumes σ n kind thread ∧ (d.session σ n).status.state = .paused ∧
      (d.after σ n).link.connection.isClosed = false ∧
      (d.session σ (n + 1)).status.state = .running) ∨
    (¬ d.Resumes σ n kind thread ∧ d.session σ (n + 1) = d.session σ n ∧
      (d.after σ (n + 1)).link = (d.after σ n).link) := by
  have hnot : (d.after σ (n + 1)).link = (d.after σ n).link → ¬ d.Resumes σ n kind thread := by
    intro hl hr
    have hq := hr.sent
    rw [hl] at hq
    exact List.cons_ne_nil _ _ (List.self_eq_append_right.mp hq)
  by_cases ho : (d.after σ n).Over
  · have hsame : d.after σ (n + 1) = d.after σ n := by
      show (d.after σ n).move (σ n) = _
      rw [hg]
      exact if_pos ho
    refine Or.inr ⟨hnot (congrArg link hsame), ?_, congrArg link hsame⟩
    exact congrArg (fun x => x.room.state) hsame
  · have htaken : (d.after σ n).taken? (σ n) =
        some (.command (.order (.resume kind thread) ticket)) :=
      (if_neg ho).trans (by rw [hg]; rfl)
    obtain ⟨-, -, es, hh, -, hlink⟩ := handles_move htaken
    rcases State.handles_resumed hh with ⟨hp, hc, hrun, hconn⟩ | ⟨-, hs, hconn⟩
    · exact Or.inl ⟨⟨⟨ticket, hg⟩, congrArg Connection.queue hconn⟩, hp, hc, hrun⟩
    · have hl : (d.after σ (n + 1)).link = (d.after σ n).link :=
        hlink.trans (congrArg (fun c => { (d.after σ n).link with connection := c }) hconn)
      exact Or.inr ⟨hnot hl, hs, hl⟩

theorem Resumes.paused {n : Nat} {kind : StepKind} {thread : Int} (h : d.Resumes σ n kind thread) :
    (d.session σ n).status.state = .paused ∧ (d.after σ n).link.connection.isClosed = false ∧
    (d.session σ (n + 1)).status.state = .running := by
  obtain ⟨ticket, hg⟩ := h.given
  rcases resumes_or hg with ⟨-, hp⟩ | ⟨hn, -⟩
  · exact hp
  · exact absurd h hn

/-- A session that has come into a pause came into it at some last move. -/
theorem exists_pause {n : Nat} (h₀ : (d.session σ 0).status.state ≠ .paused)
    (hn : (d.session σ n).status.state = .paused) :
    ∃ k < n, (d.session σ k).status.state ≠ .paused ∧
      ∀ m, k < m → m ≤ n → (d.session σ m).status.state = .paused := by
  induction n with
  | zero => exact absurd hn h₀
  | succ n ih =>
    by_cases hp : (d.session σ n).status.state = .paused
    · obtain ⟨k, hk, hb, ha⟩ := ih hp
      refine ⟨k, Nat.lt_succ_of_lt hk, hb, fun m hkm hmn => ?_⟩
      rcases Nat.lt_or_eq_of_le hmn with h | h
      · exact ha m hkm (Nat.le_of_lt_succ h)
      · rw [h]; exact hn
    · refine ⟨n, Nat.lt_succ_self n, hp, fun m hnm hmn => ?_⟩
      have hm : m = n + 1 := by omega
      rw [hm]; exact hn

/-- A move that leads into a pause is one of the two that may. -/
theorem pausesAnew (hl : Lockstep d.room.state) {n : Nat}
    (hb : (d.session σ n).status.state ≠ .paused)
    (ha : (d.session σ (n + 1)).status.state = .paused) : d.PausesAnew σ n := by
  refine ⟨hb, ha, ?_⟩
  cases he : d.entered? σ n with
  | none =>
    rw [session_stays he] at ha
    exact absurd ha hb
  | some st =>
    obtain ⟨hst, -, -⟩ := session_entered hl he
    rw [ha] at hst
    subst hst
    obtain ⟨i, hi, he⟩ := Option.bind_eq_some_iff.mp he
    obtain ⟨hm, -, -⟩ := handles_move hi
    rcases State.entered_paused he with ⟨e, rfl, hname⟩ | ⟨error, ticket, rfl, hrun⟩
    · exact Or.inl ⟨e, hm, hname⟩
    · exact Or.inr ⟨error, ticket, hm, hrun⟩

/-- **One resume for each pause.** In every order of moves from the beginning of a session on: whatever
the session adds to the queue is the request of a resume; it does so only in a pause, which it leaves,
and over an open connection; and before each such request it has come into a pause anew since the one
before. A command to resume that is not sent changes neither the session nor the link. -/
theorem one_resume_per_pause (d : Debugger ρ) (id : SessionId) (attached : Bool)
    (σ : Nat → Move ρ) :
    (∀ n i, σ n = .input i →
      ((d.fresh id attached).after σ (n + 1)).link.connection.queue =
        ((d.fresh id attached).after σ n).link.connection.queue ∨
      ∃ kind thread, (d.fresh id attached).Resumes σ n kind thread) ∧
    (∀ n kind thread, (d.fresh id attached).Resumes σ n kind thread →
      ((d.fresh id attached).session σ n).status.state = .paused ∧
      ((d.fresh id attached).after σ n).link.connection.isClosed = false ∧
      ((d.fresh id attached).session σ (n + 1)).status.state = .running) ∧
    (∀ n kind thread, (d.fresh id attached).Resumes σ n kind thread →
      ∃ k < n, (d.fresh id attached).PausesAnew σ k ∧
        ∀ m kind' thread', m < n → (d.fresh id attached).Resumes σ m kind' thread' → m < k) ∧
    (∀ n kind thread ticket, σ n = .input (.command (.order (.resume kind thread) ticket)) →
      ¬ (d.fresh id attached).Resumes σ n kind thread →
      (d.fresh id attached).session σ (n + 1) = (d.fresh id attached).session σ n ∧
      ((d.fresh id attached).after σ (n + 1)).link = ((d.fresh id attached).after σ n).link) := by
  have hl := lockstep_fresh d id attached
  refine ⟨fun n i hi => ?_, fun n kind thread h => h.paused, fun n kind thread h => ?_,
    fun n kind thread ticket hg hn => ?_⟩
  · by_cases ho : ((d.fresh id attached).after σ n).Over
    · left
      show (((d.fresh id attached).after σ n).move (σ n)).link.connection.queue = _
      rw [hi, move, if_pos ho]
    · have htaken : ((d.fresh id attached).after σ n).taken? (σ n) = some i :=
        (if_neg ho).trans (by rw [hi]; rfl)
      obtain ⟨-, -, es, hh, -, -⟩ := handles_move htaken
      rcases State.handles_queue hh with hq | ⟨kind, thread, ticket, rfl, hconn⟩
      · exact Or.inl hq
      · exact Or.inr ⟨kind, thread, ⟨ticket, hi⟩, congrArg Connection.queue hconn⟩
  · obtain ⟨k, hk, hb, ha⟩ := exists_pause (fun hc => RunState.noConfusion hc) h.paused.1
    refine ⟨k, hk, pausesAnew hl hb (ha (k + 1) (Nat.lt_succ_self k) hk), ?_⟩
    intro m kind' thread' hmn hm
    rcases Nat.lt_or_ge m k with hmk | hkm
    · exact hmk
    · have hrun := hm.paused.2.2
      rw [ha (m + 1) (Nat.lt_succ_of_le hkm) hmn] at hrun
      cases hrun
  · rcases resumes_or hg with ⟨hr, -⟩ | ⟨-, hsame⟩
    · exact absurd hr hn
    · exact hsame

/-- Two users resume at once, and the first resume fails. -/
def twoUsers (n : Nat) : Move Unit :=
  [.input (stoppedAt 7), .act 1 (.order (.resume .continue 7)), .act 2 (.order (.resume .next 7)),
    .input (.command (.order (.resume .continue 7) 0)),
    .input (.command (.order (.resume .next 7) 1)),
    .input (.command (.resumeFailed 3 (.adapterRejected "continue" "not now") 0)),
    .input (.command (.order (.resume .next 7) 2))].getD n .read

theorem one_resume_per_pause_twoUsers :
    begun.Resumes twoUsers 3 .continue 7 ∧
    (¬ begun.Resumes twoUsers 4 .next 7 ∧
      begun.session twoUsers 5 = begun.session twoUsers 4) ∧
    (begun.Resumes twoUsers 6 .next 7 ∧ (begun.session twoUsers 6).status.state = .paused ∧
      ∃ k < 6, begun.PausesAnew twoUsers k ∧ 3 < k) := by
  have h3 : begun.Resumes twoUsers 3 .continue 7 := ⟨⟨0, rfl⟩, rfl⟩
  have h4 : ¬ begun.Resumes twoUsers 4 .next 7 := fun h =>
    absurd (congrArg List.length h.sent) (by decide)
  have h6 : begun.Resumes twoUsers 6 .next 7 := ⟨⟨2, rfl⟩, rfl⟩
  obtain ⟨-, hpaused, hanew, hsame⟩ :=
    one_resume_per_pause { link := .start ⟨5000⟩ } ⟨1⟩ true twoUsers
  obtain ⟨k, hk, hpause, hbefore⟩ := hanew 6 _ _ h6
  exact ⟨h3, ⟨h4, (hsame 4 _ _ 1 rfl h4).1⟩, h6, (hpaused 6 _ _ h6).1, k, hk, hpause,
    hbefore 3 _ _ (by decide) h3⟩

end Debugger
end DebugHost
