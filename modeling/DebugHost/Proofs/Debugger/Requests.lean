import DebugHost.Proofs.Debugger.Beats

/-! # Requests and their answers

A request that is sent takes the next number and is waited for. Its answer is read, is there until
somebody takes it (`Evolves.answer?`), and is then gone for good: a number that is no longer waited for
is not waited for again (`Evolves.forgotten`). `Evolves` says all that a beat can do to the requests of
a connection. -/

namespace DebugHost

open DebugHost.Session

namespace Debugger

variable {ρ : Type}

/-! ### What becomes of requests -/

/-- The connection `c` and what it has become, where the answers `reads` may have been read and those to
the requests `takes` may have been taken. -/
inductive Evolves (c : Connection) (reads : Response → Prop) (takes : Int → Prop) (c' : Connection) :
    Prop where
  /-- Requests have been sent or given up. -/
  | goesOn (later : c.nextSeq ≤ c'.nextSeq) (answers : c'.answers = c.answers)
    (pending : ∀ seq ∈ c'.pending, seq ∈ c.pending ∨ c.nextSeq ≤ seq ∧ seq < c'.nextSeq)
  /-- An answer has been read. -/
  | read (r : Response) (may : reads r) (same : c'.nextSeq = c.nextSeq)
    (answers : c'.answers = c.answers ++ [(r.requestSeq, r)])
    (expected : r.requestSeq ∈ c.pending)
    (pending : c'.pending = c.pending.filter (· != r.requestSeq))
  /-- An answer has been taken, or is no longer waited for. -/
  | taken (seq : Int) (may : takes seq) (same : c'.nextSeq = c.nextSeq)
    (answers : c'.answers = c.answers.filter (·.1 != seq))
    (pending : c'.pending = c.pending.filter (· != seq))

/-- Nothing becomes of requests where their numbers and answers stay. -/
theorem Evolves.of_same {c c' : Connection} {reads : Response → Prop} {takes : Int → Prop}
    (hn : c'.nextSeq = c.nextSeq) (hp : c'.pending = c.pending) (ha : c'.answers = c.answers) :
    Evolves c reads takes c' :=
  .goesOn (Int.le_of_eq hn.symm) ha fun _ h => Or.inl (hp ▸ h)

theorem Evolves.mono {c c' : Connection} {reads reads' : Response → Prop} {takes takes' : Int → Prop}
    (h : Evolves c reads takes c') (hr : ∀ r, reads r → reads' r) (ht : ∀ seq, takes seq → takes' seq) :
    Evolves c reads' takes' c' := by
  cases h with
  | goesOn hl ha hp => exact .goesOn hl ha hp
  | read r may hn ha he hp => exact .read r (hr r may) hn ha he hp
  | taken seq may hn ha hp => exact .taken seq (ht seq may) hn ha hp

theorem evolves_send (c : Connection) (m : Message) {reads : Response → Prop} {takes : Int → Prop} :
    Evolves c reads takes ((c.takeSeq.2.expect c.nextSeq).post m) := by
  refine .goesOn (Int.le_add_one (Int.le_refl _)) rfl fun seq h => ?_
  rcases List.mem_append.mp h with h | h
  · exact Or.inl h
  · exact Or.inr ⟨Int.le_of_eq (List.mem_singleton.mp h).symm,
      Int.lt_add_one_of_le (Int.le_of_eq (List.mem_singleton.mp h))⟩

theorem evolves_attempt (d : Debugger ρ) (me : Nat) (a : Action) :
    Evolves d.link.connection (fun _ => False) (fun seq => ∃ x, a = .response x ∧ x.seq = seq)
      (d.attempt me a).1.link.connection := by
  cases a with
  | send command arguments =>
    simp only [attempt, send]
    split
    · exact .of_same rfl rfl rfl
    · next seq c h =>
      unfold Connection.send at h
      split at h
      · cases h
      · cases h
        exact evolves_send d.link.connection _
  | response x =>
    simp only [attempt]
    split
    · exact .of_same rfl rfl rfl
    · exact .taken x.seq ⟨x, rfl, rfl⟩ rfl rfl rfl
    · exact .taken x.seq ⟨x, rfl, rfl⟩ rfl rfl rfl
  | deliver k r =>
    simp only [attempt]
    rcases d.room.state.tree.deliver k r with ⟨v, tree, woken⟩
    obtain ⟨s, hs⟩ := exists_schedule (d.withTree tree) .slot woken
    rw [hs]
    exact .of_same rfl rfl rfl
  | post c => simp only [attempt, post]; split <;> exact .of_same rfl rfl rfl
  | order o => simp only [attempt]; split <;> exact .of_same rfl rfl rfl
  | outcome ticket => simp only [attempt]; split <;> exact .of_same rfl rfl rfl
  | await states deadline =>
    simp only [attempt]
    split
    · exact .of_same rfl rfl rfl
    · split <;> exact .of_same rfl rfl rfl
  | lock => simp only [attempt]; split <;> exact .of_same rfl rfl rfl
  | unlock s => simp only [attempt]; split <;> exact .of_same rfl rfl rfl
  | acquire k => simp only [attempt]; split <;> exact .of_same rfl rfl rfl
  | _ => exact .of_same rfl rfl rfl

/-- In a beat the reader takes the answer `r`, and somebody waits for it. -/
structure Reads (d : Debugger ρ) (b : Beat ρ) (r : Response) : Prop where
  beat : b = .other .read
  opened : d.link.connection.isClosed = false
  next : d.link.inbound.next.1 = some (.message (.response r))
  expected : r.requestSeq ∈ d.link.connection.pending

/-- What a task does next. -/
def action? : Task ρ → Option Action
  | .watch (.act a _) => some a
  | .call _ (.act a _) => some a
  | _ => none

/-- In a beat somebody looks for the answer to the request `seq`. -/
def Takes (d : Debugger ρ) (b : Beat ρ) (seq : Int) : Prop :=
  (∃ me x, b = .other (.act me (.response x)) ∧ x.seq = seq) ∨
  ∃ me t x, b = .task me ∧ d.task? me = some t ∧ action? t = some (.response x) ∧ x.seq = seq

theorem evolves_read (d : Debugger ρ) :
    Evolves d.link.connection (d.Reads (.other .read)) (fun _ => False) d.link.read.link.connection := by
  unfold Link.read
  split
  · exact .goesOn (Int.le_refl _) rfl fun seq h => by cases h
  · next ho =>
    have hopen : d.link.connection.isClosed = false := Bool.eq_false_iff.mpr ho
    split
    · exact .of_same rfl rfl rfl
    · next m r hm =>
      cases m with
      | response a =>
        have hn : d.link.inbound.next.1 = some (.message (.response a)) := congrArg Prod.fst hm
        simp only [Link.receive, Connection.complete]
        split
        · next he => exact .read a ⟨rfl, hopen, hn, he⟩ rfl rfl he rfl
        · exact .of_same rfl rfl rfl
      | event e => exact .of_same rfl rfl rfl
      | request q =>
        exact .goesOn (Int.le_add_one (Int.le_refl _)) rfl fun seq h => Or.inl h
    · exact .goesOn (Int.le_refl _) rfl fun seq h => by cases h
    · exact .goesOn (Int.le_refl _) rfl fun seq h => by cases h

theorem evolves_write (l : Link) {reads : Response → Prop} {takes : Int → Prop} :
    Evolves l.connection reads takes l.write.link.connection := by
  unfold Link.write
  split
  · exact .of_same rfl rfl rfl
  · split
    · exact .of_same rfl rfl rfl
    · simp only
      split <;> exact .of_same rfl rfl rfl

theorem evolves_takeInput (d : Debugger ρ) (ho : ¬ d.Over) (i : Input) {reads : Response → Prop}
    {takes : Int → Prop} :
    Evolves d.link.connection reads takes (d.takeInput i).link.connection := by
  obtain ⟨-, hl, -⟩ := takeInput_keeps d i
  rw [hl]
  cases State.handles_step d.link.connection ho i with
  | stays _ _ hc => rw [hc]; exact .of_same rfl rfl rfl
  | enters _ _ _ _ _ hc => rw [hc]; exact .of_same rfl rfl rfl
  | resumes kind thread ticket _ _ _ _ hc => rw [hc]; exact evolves_send d.link.connection _
  | ends _ _ _ _ hc => rw [hc]; exact .of_same rfl rfl rfl

theorem evolves_move (d : Debugger ρ) {m : Move ρ} (hm : m.foreign = true) :
    Evolves d.link.connection (d.Reads (.other m)) (d.Takes (.other m))
      (d.move m).link.connection := by
  cases m with
  | act me a =>
    refine (evolves_attempt d me a).mono (fun _ h => h.elim) fun seq ⟨x, ha, hx⟩ => ?_
    exact Or.inl ⟨me, x, by rw [ha], hx⟩
  | read =>
    simp only [move, afterStep_link]
    exact (evolves_read d).mono (fun _ h => h) fun _ h => h.elim
  | write => simp only [move, afterStep_link]; exact evolves_write d.link
  | pass => simp only [move, (passReports_keeps d).2.2]; exact .of_same rfl rfl rfl
  | pick => cases hm
  | input i => cases hm
  | leave => cases hm
  | aside e => cases hm
  | feed e => simp only [move, feed]; split <;> exact .of_same rfl rfl rfl
  | _ => exact .of_same rfl rfl rfl

theorem evolves_stride (d : Debugger ρ) (me : Nat) {reads : Response → Prop} :
    Evolves d.link.connection reads (d.Takes (.task me)) (d.stride me).link.connection := by
  have hact : ∀ a t, d.task? me = some t → action? t = some a →
      Evolves d.link.connection reads (d.Takes (.task me))
        ((d.without me).attempt me a).1.link.connection := by
    intro a t ht ha
    refine (evolves_attempt (d.without me) me a).mono (fun _ h => h.elim) fun seq ⟨x, hx, hseq⟩ => ?_
    exact Or.inr ⟨me, t, x, rfl, ht, by rw [ha, hx], hseq⟩
  cases strides d me with
  | idle h => rw [h]; exact .of_same rfl rfl rfl
  | watch a next ht h =>
    have := hact a _ ht rfl
    rw [← pace_fst _ me a next] at this
    rw [h]; exact this
  | watchOver _ h => rw [h]; exact .of_same rfl rfl rfl
  | call id a next ht h =>
    have := hact a _ ht rfl
    rw [← pace_fst _ me a next] at this
    rw [h]; exact this
  | callOver id r _ h => rw [h]; exact .of_same rfl rfl rfl

theorem evolves_attend (d : Debugger ρ) {reads : Response → Prop} {takes : Int → Prop} :
    Evolves d.link.connection reads takes d.attend.link.connection := by
  unfold attend
  split
  · rw [(leave_keeps d).2.1]; exact .of_same rfl rfl rfl
  · next ho =>
    split
    · exact .of_same rfl rfl rfl
    · next i room hr =>
      have hgoing : ¬ ({ d with room := room } : Debugger ρ).Over := by
        show room.state.status.state ≠ _
        rw [(next_keeps hr).1]
        exact ho
      exact evolves_takeInput { d with room := room } hgoing i

/-- **What a beat does to requests.** -/
theorem evolves_beat (d : Resumer) (b : Beat (Except DebugError Unit)) :
    Evolves d.link.connection (d.Reads b) (d.Takes b) (d.beat b).link.connection := by
  cases b with
  | task me => exact evolves_stride d me
  | session => exact evolves_attend d
  | resume id kind thread => exact .of_same rfl rfl rfl
  | other m =>
    simp only [beat]
    split
    · next hm => exact evolves_move d hm
    · exact .of_same rfl rfl rfl
  | lift me => simp only [beat]; split <;> exact .of_same rfl rfl rfl
  | lay me t => simp only [beat]; split <;> exact .of_same rfl rfl rfl
  | aside e => exact .of_same rfl rfl rfl

/-! ### Numbers -/

/-- The requests of a connection are numbered in order, and those that have an answer are not waited
for. -/
structure Numbered (c : Connection) : Prop where
  pending : ∀ seq ∈ c.pending, seq < c.nextSeq
  answers : ∀ a ∈ c.answers, a.1 < c.nextSeq
  apart : ∀ a ∈ c.answers, a.1 ∉ c.pending

theorem Evolves.nextSeq_le {c c' : Connection} {reads : Response → Prop} {takes : Int → Prop}
    (h : Evolves c reads takes c') : c.nextSeq ≤ c'.nextSeq := by
  cases h with
  | goesOn hl => exact hl
  | read _ _ hn => exact Int.le_of_eq hn.symm
  | taken _ _ hn => exact Int.le_of_eq hn.symm

theorem Evolves.numbered {c c' : Connection} {reads : Response → Prop} {takes : Int → Prop}
    (h : Evolves c reads takes c') (hc : Numbered c) : Numbered c' := by
  cases h with
  | goesOn hl ha hp =>
    refine ⟨fun seq hs => ?_, fun a hs => ?_, fun a hs hm => ?_⟩
    · rcases hp seq hs with h | ⟨-, h⟩
      · exact Int.lt_of_lt_of_le (hc.pending seq h) hl
      · exact h
    · rw [ha] at hs
      exact Int.lt_of_lt_of_le (hc.answers a hs) hl
    · rw [ha] at hs
      rcases hp a.1 hm with h | ⟨h, -⟩
      · exact hc.apart a hs h
      · exact absurd (hc.answers a hs) (Int.not_lt.mpr h)
  | read r _ hn ha he hp =>
    have hanswers : ∀ a ∈ c'.answers, a ∈ c.answers ∨ a = (r.requestSeq, r) := fun a hs => by
      rw [ha] at hs
      simpa using hs
    refine ⟨fun seq hs => ?_, fun a hs => ?_, fun a hs hm => ?_⟩
    · rw [hp] at hs
      rw [hn]
      exact hc.pending seq (List.mem_filter.mp hs).1
    · rw [hn]
      rcases hanswers a hs with h | rfl
      · exact hc.answers a h
      · exact hc.pending _ he
    · rw [hp] at hm
      rcases hanswers a hs with h | rfl
      · exact hc.apart a h (List.mem_filter.mp hm).1
      · simp at hm
  | taken seq _ hn ha hp =>
    refine ⟨fun seq hs => ?_, fun a hs => ?_, fun a hs hm => ?_⟩
    · rw [hp] at hs
      rw [hn]
      exact hc.pending seq (List.mem_filter.mp hs).1
    · rw [ha] at hs
      rw [hn]
      exact hc.answers a (List.mem_filter.mp hs).1
    · rw [ha] at hs
      rw [hp] at hm
      exact hc.apart a (List.mem_filter.mp hs).1 (List.mem_filter.mp hm).1

/-- A request that is no longer waited for. -/
def Forgotten (c : Connection) (seq : Int) : Prop := seq < c.nextSeq ∧ seq ∉ c.pending

theorem Evolves.forgotten {c c' : Connection} {reads : Response → Prop} {takes : Int → Prop}
    (h : Evolves c reads takes c') {seq : Int} (hs : Forgotten c seq) : Forgotten c' seq := by
  refine ⟨Int.lt_of_lt_of_le hs.1 h.nextSeq_le, fun hm => hs.2 ?_⟩
  cases h with
  | goesOn _ _ hp =>
    rcases hp seq hm with h | ⟨h, -⟩
    · exact h
    · exact absurd hs.1 (Int.not_lt.mpr h)
  | read _ _ _ _ _ hp => rw [hp] at hm; exact (List.mem_filter.mp hm).1
  | taken _ _ _ _ hp => rw [hp] at hm; exact (List.mem_filter.mp hm).1

/-- An answer stays until somebody takes it. -/
theorem Evolves.answer? {c c' : Connection} {reads : Response → Prop} {takes : Int → Prop}
    (h : Evolves c reads takes c') {seq : Int} {r : Response} (hr : c.answer? seq = some r)
    (ht : ¬ takes seq) : c'.answer? seq = some r := by
  unfold Connection.answer? at hr ⊢
  cases h with
  | goesOn _ ha => rw [ha]; exact hr
  | read _ _ _ ha =>
    obtain ⟨a, hf, rfl⟩ := Option.map_eq_some_iff.mp hr
    rw [ha, List.find?_append, hf]
    rfl
  | taken seq' may _ ha =>
    have hne : seq' ≠ seq := fun he => ht (he ▸ may)
    rw [ha, List.find?_filter, ← hr]
    congr 2
    funext a
    by_cases he : a.1 = seq <;> simp [he, Ne.symm hne]

/-! ### Answers -/

end Debugger

/-- What the one is told who waits for an answer, unless he has to wait on. -/
def Exchange.result? (x : Exchange) (c : Connection) (now : Nat) : Option (Except DebugError Response) :=
  match x.standing c now with
  | .waiting => none
  | .over r => some r
  | .late => some (.error (.timeout x.command c.timeout))

namespace Debugger

/-- The one who waits is told the answer that is there. -/
theorem result_of_answer {x : Exchange} {c : Connection} {r : Response} (h : c.answer? x.seq = some r)
    (now : Nat) : x.result? c now = some (Exchange.outcome x.command r) := by
  simp only [Exchange.result?, Exchange.standing, h]

/-- The one who is told that the adapter agreed is told an answer. -/
theorem answer_of_ok {x : Exchange} {c : Connection} {now : Nat} {r : Response}
    (h : x.result? c now = some (.ok r)) : (x.seq, r) ∈ c.answers ∧ r.success = true := by
  cases ha : c.answer? x.seq with
  | none =>
    simp only [Exchange.result?, Exchange.standing, ha] at h
    split at h
    · cases h
    · next hs => split_ifs at hs <;> (cases hs; cases h)
    · cases h
  | some r' =>
    rw [result_of_answer ha] at h
    have hout : Exchange.outcome x.command r' = .ok r := Option.some.inj h
    unfold Exchange.outcome at hout
    split at hout
    · next hs =>
      cases hout
      obtain ⟨a, hf, rfl⟩ := Option.map_eq_some_iff.mp ha
      have hseq : a.1 = x.seq := by simpa using List.find?_some hf
      exact ⟨hseq ▸ List.mem_of_find?_eq_some hf, hs⟩
    · cases hout

/-! ### Any order of beats -/

variable {d : Resumer} {σ : Nat → Beat (Except DebugError Unit)} {n : Nat}

theorem numbered_played (h : Numbered d.link.connection) (n : Nat) :
    Numbered (d.played σ n).link.connection := by
  induction n with
  | zero => exact h
  | succ n ih => exact (evolves_beat _ (σ n)).numbered ih

theorem nextSeq_mono {i j : Nat} (hij : i ≤ j) :
    (d.played σ i).link.connection.nextSeq ≤ (d.played σ j).link.connection.nextSeq := by
  induction hij with
  | refl => exact Int.le_refl _
  | @step j _ ih => exact Int.le_trans ih (evolves_beat _ (σ j)).nextSeq_le

theorem forgotten_later {i j : Nat} (hij : i ≤ j) {seq : Int}
    (h : Forgotten (d.played σ i).link.connection seq) :
    Forgotten (d.played σ j).link.connection seq := by
  induction hij with
  | refl => exact h
  | @step j _ ih => exact (evolves_beat _ (σ j)).forgotten ih

/-- An answer that was not there from the beginning has been read. -/
theorem read_of_answer {a : Int × Response}
    (ha : a ∈ (d.played σ n).link.connection.answers) :
    a ∈ d.link.connection.answers ∨
      ∃ m < n, (d.played σ m).Reads (σ m) a.2 ∧ a.2.requestSeq = a.1 := by
  induction n with
  | zero => exact Or.inl ha
  | succ n ih =>
    have hlater (h : a ∈ (d.played σ n).link.connection.answers) :
        a ∈ d.link.connection.answers ∨
          ∃ m < n + 1, (d.played σ m).Reads (σ m) a.2 ∧ a.2.requestSeq = a.1 :=
      (ih h).imp_right fun ⟨m, hm, hr⟩ => ⟨m, Nat.lt_succ_of_lt hm, hr⟩
    cases evolves_beat (d.played σ n) (σ n) with
    | goesOn _ hs => exact hlater (hs ▸ ha)
    | read r may _ hs =>
      rw [played_succ, hs] at ha
      rcases List.mem_append.mp ha with h | h
      · exact hlater h
      · rw [List.mem_singleton.mp h]
        exact Or.inr ⟨n, Nat.lt_succ_self n, may, rfl⟩
    | taken seq _ _ hs =>
      rw [played_succ, hs] at ha
      exact hlater (List.mem_filter.mp ha).1

/-- An answer that is read is there. -/
theorem Reads.after {b : Beat (Except DebugError Unit)} {r : Response} (h : d.Reads b r)
    (hc : Numbered d.link.connection) :
    (d.beat b).link.connection.answer? r.requestSeq = some r := by
  obtain ⟨rfl, hopen, hnext, he⟩ := h
  have hread : d.link.read.link.connection = (d.link.connection.complete r).1 := by
    unfold Link.read
    rw [hopen, if_neg Bool.false_ne_true]
    split
    · next hm => rw [hm] at hnext; cases hnext
    · next hm =>
      rw [hm] at hnext
      cases hnext
      simp only [Link.receive]
      split <;> rfl
    · next hm => rw [hm] at hnext; cases hnext
    · next hm => rw [hm] at hnext; cases hnext
  have hnone : d.link.connection.answers.find? (·.1 == r.requestSeq) = none := by
    refine List.find?_eq_none.mpr fun a ha heq => ?_
    have : a.1 = r.requestSeq := by simpa using heq
    exact hc.apart a ha (this ▸ he)
  have hbeat : (d.beat (.other .read)).link = d.link.read.link := afterStep_link d d.link.read
  rw [hbeat, hread, Connection.answer?, Connection.complete, if_pos he]
  simp only [List.find?_append, hnone, List.find?_cons_of_pos, beq_self_eq_true, Option.none_or,
    Option.map_some]

end Debugger
end DebugHost
