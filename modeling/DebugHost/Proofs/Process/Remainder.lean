import DebugHost.Proofs.Process.Completion
import DebugHost.Proofs.Process.Progress

/-! # What is left of a line

What a reader has taken in behind the last line feed is reported when the reader comes to its end by itself,
at the end of its stream or because it fails to read. A watcher that has waited for a reader for too long
makes it end (`made_over`), and then that remainder is reported by nobody (`shown_eq`). All that was read of a
stream is reported just if its reader has ended by itself or no line was begun (`whole_iff`). Whatever a
reader has read, it may come to that (`loses`): the program exits, another one keeps the stream open, and the
time passes. -/

namespace DebugHost.Supervision

open LineBuffer

variable {x y : Supervision} {id : RunId} {r r' : Run} {e : Exit} {t : Stream} {grace : Duration}
  {σ : Nat → Move} {n m : Nat}

/-! ### What is reported -/

theorem allLines_eq_complete {octets : List UInt8} :
    allLines octets = completeLines octets ↔ rest octets = [] := by
  unfold allLines
  split
  · next h => simp [h]
  · next h => simp [h]

theorem Shows.eq {reader : StreamReader} {octets : List UInt8} {isComplete : Bool} {shown : List String}
    (h : Shows reader octets isComplete shown) :
    shown = if isComplete then allLines octets else completeLines octets := by
  cases h with
  | reading ho hc hholds hshown => rw [hc]; exact hshown
  | finished ho hc hshown => rw [hc]; exact hshown
  | abandoned ho hc hshown => rw [hc]; exact hshown

/-- **What is reported of a stream**, at any time. -/
theorem shown_eq (hr : (after grace σ n).supervisor.find? id = some r) (t : Stream) :
    Program.linesOf t r.events =
      if (after grace σ n).isComplete id t then allLines ((after grace σ n).octets id t)
      else completeLines ((after grace σ n).octets id t) :=
  ((written_after grace σ n hr).shows t).eq

/-- All that was read of a stream is reported just if its reader has ended by itself or no line was begun. -/
theorem whole_iff (hr : (after grace σ n).supervisor.find? id = some r) (t : Stream) :
    Program.linesOf t r.events = allLines ((after grace σ n).octets id t) ↔
      (after grace σ n).isComplete id t = true ∨ rest ((after grace σ n).octets id t) = [] := by
  rw [shown_eq hr t]
  cases (after grace σ n).isComplete id t with
  | true => simp
  | false => simpa using eq_comm.trans allLines_eq_complete

/-- What is missing is the last line. -/
theorem missing_eq (hr : (after grace σ n).supervisor.find? id = some r)
    (hc : (after grace σ n).isComplete id t = false)
    (hrest : rest ((after grace σ n).octets id t) ≠ []) :
    allLines ((after grace σ n).octets id t) =
      Program.linesOf t r.events ++ [lineText (rest ((after grace σ n).octets id t))] := by
  rw [shown_eq hr t, hc]
  exact congrArg (completeLines _ ++ ·) (if_neg hrest)

/-! ### How readers end -/

/-- A reader that a watcher makes end is the one it waits for, and its time is over. -/
theorem Attends.made_over {g now : Nat} {deed : Deed} (ha : Attends g now r r' deed)
    (ho : (r.reader t).isOver = false) (ho' : (r'.reader t).isOver = true) :
    ∃ e d, r.watch = .joining e t d ∧ d ≤ now := by
  have hsame : r'.reader t = r.reader t → ∃ e d, r.watch = .joining e t d ∧ d ≤ now := fun h => by
    rw [h, ho] at ho'
    cases ho'
  cases ha with
  | @abandon e s d hw hd hs =>
    by_cases h : t = s
    · exact ⟨e, d, h ▸ hw, hd⟩
    · refine hsame ((reader_congr (r := r.abandon s) rfl rfl t).trans ?_)
      exact (reader_setReader r s t _).trans (if_neg h)
  | _ => exact hsame (reader_congr rfl rfl t)

theorem Alters.made_over (ha : Alters x y id r r') (ho : (r.reader t).isOver = false)
    (ho' : (r'.reader t).isOver = true) (hc : y.isComplete id t = false) :
    ∃ e d, r.watch = .joining e t d ∧ d ≤ x.now := by
  cases ha with
  | same hu => cases ho.symm.trans ho'
  | attends ha hu => exact ha.made_over ho ho'
  | cancelled hme hu =>
    have hreader : ({ r with stopAsked := true } : Run).reader t = r.reader t := reader_congr rfl rfl t
    rw [hreader, ho] at ho'
    cases ho'
  | @fed s chunk hs hoctets hcomplete =>
    -- a reader that takes in a chunk goes on
    rw [feed_eq hs, reader_report, reader_setReader] at ho'
    split at ho'
    · cases ho'
    · cases ho.symm.trans ho'
  | @finished s hs hoctets hcomplete =>
    rw [finish_eq hs, reader_report, reader_setReader] at ho'
    split at ho'
    · next h =>
      rw [hcomplete, h, Function.update_self] at hc
      cases hc
    · cases ho.symm.trans ho'

/-! ### Programs that exit -/

/-- Something is due when the program of a run that is not over has exited and its deadline has passed. -/
theorem due_of_exited {now : Nat} (status : WaitStatus) (hleft : r.watch.left ≠ 0)
    (hd : ∀ d, r.deadline? = some d → d ≤ now) : ∃ m, r.due? now (some status) = some m := by
  unfold Run.due?
  cases hw : r.watch with
  | joining e t d =>
    by_cases ho : (r.reader t).isOver = true
    · exact ⟨.join, if_pos ho⟩
    · exact ⟨.abandon, (if_neg ho).trans (if_pos (hd d (by unfold Run.deadline?; rw [hw])))⟩
  | «over» e => rw [hw] at hleft; exact absurd rfl hleft
  | _ => exact ⟨_, rfl⟩

theorem over_of_left (h : r.watch.left = 0) : ∃ e, r.watch = .over e := by
  cases hw : r.watch with
  | «over» e => exact ⟨e, rfl⟩
  | joining e t d => rw [hw] at h; cases t <;> cases h
  | _ => rw [hw] at h; cases h

/-- Every watcher has its turn at any late time, with the status of a program that has exited. -/
theorem has_turn (grace : Duration) (σ : Nat → Move) (hn : n ≤ m) (id : RunId) (t : Nat) :
    ∃ k ≥ m, fairly σ n k = .watch id (some (.code 0)) ∧ t ≤ (after grace (fairly σ n) k).now := by
  have hk := Nat.right_le_pair id.number (m + t + 3)
  have hnow := now_fairly grace σ (show n + 3 ≤ 3 * Nat.pair id.number (m + t + 3) + 2 by omega)
  refine ⟨3 * Nat.pair id.number (m + t + 3) + 2, by omega, ?_, by omega⟩
  exact (fairly_turns (by omega)).trans (turns_watch id.number _)

/-- **When everybody has turns and programs exit, every run is over at last.** -/
theorem over_at_last (hn : n ≤ m) (hr : (after grace (fairly σ n) m).supervisor.find? id = some r) :
    ∃ k ≥ m, ∃ r' e, (after grace (fairly σ n) k).supervisor.find? id = some r' ∧ r'.watch = .over e := by
  -- by induction on how far the watcher has to go
  induction hk : r.watch.left using Nat.strongRecOn generalizing m r with
  | ind left ih =>
    by_cases hleft : r.watch.left = 0
    · obtain ⟨e, he⟩ := over_of_left hleft
      exact ⟨m, Nat.le_refl m, r, e, hr, he⟩
    · -- the watcher has its turn when its deadline has passed
      obtain ⟨k, hmk, hσ, htime⟩ := has_turn grace σ hn id (r.deadline?.getD 0)
      obtain ⟨q, hq, -, hw⟩ := run_later hr hmk
      rcases hw with hw | hlt
      · have hd : ∀ d, q.deadline? = some d → d ≤ (after grace (fairly σ n) k).now := fun d hd => by
          have hd' : r.deadline? = some d := by
            unfold Run.deadline? at hd ⊢
            rwa [← hw]
          rwa [hd'] at htime
        obtain ⟨move, hdue⟩ := due_of_exited (.code 0) (hw ▸ hleft) hd
        obtain ⟨q', deed, s, ha, hdone, hwatch⟩ := watch_due hq hdue
        have hq' : (after grace (fairly σ n) (k + 1)).supervisor.find? id = some q' := by
          rw [after_succ, hσ]
          show ((after grace (fairly σ n) k).watch id _).supervisor.find? id = _
          rw [hwatch]
          exact (hdone.find id).trans (if_pos rfl)
        obtain ⟨k', hk', hover⟩ := ih q'.watch.left (hk ▸ hw ▸ ha.left) (by omega) hq' rfl
        exact ⟨k', by omega, hover⟩
      · obtain ⟨k', hk', hover⟩ := ih q.watch.left (hk ▸ hlt) (by omega) hq rfl
        exact ⟨k', by omega, hover⟩

/-- Turns read nothing. -/
theorem unread_turns (x : Supervision) (k : Nat) :
    (x.move (turns k)).octets = x.octets ∧ (x.move (turns k)).isComplete = x.isComplete := by
  unfold turns
  split
  · exact ⟨rfl, rfl⟩
  · show (x.advance _).octets = _ ∧ (x.advance _).isComplete = _
    unfold advance
    split <;> exact ⟨rfl, rfl⟩
  · show (x.watch _ _).octets = _ ∧ (x.watch _ _).isComplete = _
    unfold watch
    split <;> exact ⟨rfl, rfl⟩

theorem unread_fairly (grace : Duration) (σ : Nat → Move) (hnm : n ≤ m) :
    (after grace (fairly σ n) m).octets = (after grace σ n).octets ∧
      (after grace (fairly σ n) m).isComplete = (after grace σ n).isComplete := by
  induction hnm with
  | refl =>
    rw [show after grace (fairly σ n) n = after grace σ n from reached_congr _ fun i hi => if_pos hi]
    exact ⟨rfl, rfl⟩
  | @step k hk ih =>
    obtain ⟨hoctets, hcomplete⟩ := unread_turns (after grace (fairly σ n) k) k
    rw [after_succ, fairly_turns hk]
    exact ⟨hoctets.trans ih.1, hcomplete.trans ih.2⟩

/-! ### What is lost -/

/-- **Whatever a reader holds may be lost**: the schedule goes on so that the exit is reported, with nothing
more that is read and nothing that is reported of the line that was begun. -/
theorem loses (hr : (after grace σ n).supervisor.find? id = some r) (ho : (r.reader t).isOver = false) :
    ∃ σ', (∀ k < n, σ' k = σ k) ∧ ∃ m ≥ n, ∃ r' e,
      (after grace σ' m).supervisor.find? id = some r' ∧ .completed e ∈ r'.events ∧
      (after grace σ' m).octets id t = (after grace σ n).octets id t ∧
      Program.linesOf t r'.events = completeLines ((after grace σ n).octets id t) := by
  have hbegin : after grace (fairly σ n) n = after grace σ n := reached_congr _ fun i hi => if_pos hi
  have hc : (after grace σ n).isComplete id t = false := by
    cases (written_after grace σ n hr).shows t with
    | reading ho' hc hholds hshown => exact hc
    | finished ho' hc hshown => cases ho.symm.trans ho'
    | abandoned ho' hc hshown => exact hc
  obtain ⟨m, hnm, r', e, hr', hw⟩ := over_at_last (Nat.le_refl n) (hbegin.symm ▸ hr)
  obtain ⟨hoctets, hcomplete⟩ := unread_fairly grace σ hnm
  refine ⟨fairly σ n, fun k hk => if_pos hk, m, hnm, r', e, hr',
    (written_after grace _ m hr').completed hw, by rw [hoctets], ?_⟩
  rw [shown_eq hr' t, hoctets, hcomplete, hc]
  rfl

/-! ### All together -/

/-- What a run reports of what its readers have read. -/
structure Remainder (grace : Duration) : Prop where
  /-- All lines of what was read of a stream are reported if its reader has ended by itself, and as long as
  it has not those that have their line feed, whatever chunks they came in. -/
  shown : ∀ σ n id r t, (after grace σ n).supervisor.find? id = some r →
    Program.linesOf t r.events =
      if (after grace σ n).isComplete id t then allLines ((after grace σ n).octets id t)
      else completeLines ((after grace σ n).octets id t)
  /-- So when the exit is reported, all that was read is reported just if the reader has ended by itself or
  has not begun a line. -/
  whole_iff : ∀ σ n id r t e, (after grace σ n).supervisor.find? id = some r → .completed e ∈ r.events →
    (Program.linesOf t r.events = allLines ((after grace σ n).octets id t) ↔
      (after grace σ n).isComplete id t = true ∨ rest ((after grace σ n).octets id t) = [])
  /-- Else the last line is missing, and nothing but that. -/
  missing : ∀ σ n id r t, (after grace σ n).supervisor.find? id = some r →
    (after grace σ n).isComplete id t = false → rest ((after grace σ n).octets id t) ≠ [] →
    allLines ((after grace σ n).octets id t) =
      Program.linesOf t r.events ++ [lineText (rest ((after grace σ n).octets id t))]
  /-- A reader that has not ended by itself ends because its watcher has waited for it for too long. -/
  made : ∀ σ n id r r' t, (after grace σ n).supervisor.find? id = some r →
    (after grace σ (n + 1)).supervisor.find? id = some r' → (r.reader t).isOver = false →
    (r'.reader t).isOver = true → (after grace σ (n + 1)).isComplete id t = false →
    ∃ e d, r.watch = .joining e t d ∧ d ≤ (after grace σ n).now
  /-- That may happen to every reader, and then the line that it has begun is not among what is reported
  before the exit. -/
  lost : ∀ σ n id r t, (after grace σ n).supervisor.find? id = some r → (r.reader t).isOver = false →
    rest ((after grace σ n).octets id t) ≠ [] →
    ∃ σ', (∀ k < n, σ' k = σ k) ∧ ∃ m ≥ n, ∃ r' e,
      (after grace σ' m).supervisor.find? id = some r' ∧ .completed e ∈ r'.events ∧
      (after grace σ' m).octets id t = (after grace σ n).octets id t ∧
      Program.linesOf t r'.events ≠ allLines ((after grace σ' m).octets id t)

/-- **A line that was begun is lost if its reader is made to end**, and nothing else that was read is. -/
theorem remainder (grace : Duration) : Remainder grace where
  shown σ n id r t hr := shown_eq hr t
  whole_iff σ n id r t e hr _ := whole_iff hr t
  missing σ n id r t hr hc hrest := missing_eq hr hc hrest
  made σ n id r r' t hr hr' ho ho' hc := by
    obtain ⟨q, hq, ha⟩ := (change_after grace σ n).alters hr
    cases hq.symm.trans hr'
    exact ha.made_over ho ho' hc
  lost σ n id r t hr ho hrest := by
    obtain ⟨σ', hσ', m, hm, r', e, hr', he, hoctets, hshown⟩ := loses hr ho
    refine ⟨σ', hσ', m, hm, r', e, hr', he, hoctets, fun hall => hrest ?_⟩
    rw [hoctets, hshown] at hall
    exact allLines_eq_complete.mp hall.symm

end DebugHost.Supervision
