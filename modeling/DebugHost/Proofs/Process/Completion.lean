import DebugHost.Proofs.Process.OnePlace
import DebugHost.Proofs.Process.Output

/-! # The last word of a run

The exit is the last thing that a run reports, whatever its readers and its watcher do and however its
readers end, and when it can be received everything is settled: the exit is recorded and the place is free,
so that a stop of the run has its exit and a start is not refused because of it (`lastWord`). This puts
together what is known of the events of a run (`Written`) and of the place (`Placed`). -/

namespace DebugHost

/-- Whether anybody is left who may report something of a run: its watcher or one of its readers. The
events of a run come to their end when nobody is. -/
def Run.hasSender (r : Run) : Bool := !r.isOver || !r.out.isOver || !r.err.isOver

namespace Supervision

open LineBuffer

variable {x y : Supervision} {id : RunId} {r r' : Run} {e : Exit} {t : Stream}

/-! ### The exit as an event -/

theorem watch_of_reported? {w : Watch} (h : w.reported? = some e) : w = .over e := by
  cases w with
  | «over» e' => exact congrArg Watch.over (Option.some.inj h)
  | _ => cases h

/-- A run whose exit is among its events is over, and the exit is the last one of them. -/
theorem Written.over (h : Written x id r) (he : .completed e ∈ r.events) :
    r.watch = .over e ∧ ∃ body, r.events = body ++ [.completed e] ∧ ∀ e', .completed e' ∉ body := by
  obtain ⟨body, hbody, hevents⟩ := h.ends
  have hreported : r.watch.reported? = some e := by
    rw [hevents] at he
    rcases List.mem_append.mp he with he | he
    · exact absurd he (hbody e)
    · simpa using he
  refine ⟨watch_of_reported? hreported, body, ?_, hbody⟩
  rw [hevents, hreported]
  rfl

theorem Written.completed (h : Written x id r) (hw : r.watch = .over e) : .completed e ∈ r.events := by
  obtain ⟨body, -, hevents⟩ := h.ends
  rw [hevents, hw]
  exact List.mem_append_right body (List.mem_singleton_self _)

/-- Nothing happens to a run that is over. -/
theorem Written.silent (h : Written x id r) (hw : r.watch = .over e) (ha : Alters x y id r r') :
    r'.watch = .over e ∧ r'.events = r.events := by
  have hover : ∀ t, (r.reader t).isOver = true := fun t => h.joined t (by rw [hw]; cases t <;> rfl)
  cases ha with
  | same hu => exact ⟨hw, rfl⟩
  | attends ha hu =>
    exfalso
    have hleft := ha.left
    rw [hw] at hleft
    exact Nat.not_lt_zero _ hleft
  | cancelled hme hu => exact ⟨hw, rfl⟩
  | fed chunk ho hoctets hcomplete => cases ho.symm.trans (hover _)
  | finished ho hoctets hcomplete => cases ho.symm.trans (hover _)

variable {grace : Duration} {σ : Nat → Move} {n m : Nat}

theorem silent_later (hr : (after grace σ n).supervisor.find? id = some r) (hw : r.watch = .over e)
    (hnm : n ≤ m) : ∃ r', (after grace σ m).supervisor.find? id = some r' ∧ r'.watch = .over e ∧
      r'.events = r.events := by
  induction hnm with
  | refl => exact ⟨r, hr, hw, rfl⟩
  | step _ ih =>
    obtain ⟨q, hq, hwatch, hevents⟩ := ih
    obtain ⟨q', hq', ha⟩ := (change_after grace σ _).alters hq
    obtain ⟨hwatch', hevents'⟩ := (written_after grace σ _ hq).silent hwatch ha
    exact ⟨q', hq', hwatch', hevents'.trans hevents⟩

/-- What is settled when the exit of a run can be received. -/
theorem settled (hr : (after grace σ n).supervisor.find? id = some r)
    (he : .completed e ∈ r.events) (hnm : n ≤ m) :
    (after grace σ m).exit? id = some e ∧ (after grace σ m).released? id = some true := by
  obtain ⟨hw, -⟩ := (written_after grace σ n hr).over he
  obtain ⟨r', hr', hw', -⟩ := silent_later hr hw hnm
  rw [exit?_of_find hr', released?_of_find hr', hw']
  exact ⟨rfl, rfl⟩

/-! ### Stops and starts -/

/-- A stop of a run that has left the place ends at once, with what is recorded. -/
theorem Placed.askStop (h : Placed x) (hr : x.released? id = some true) (he : x.exit? id = some e) :
    ∃ result, x.supervisor.askStop id = (.ended result, x.supervisor, []) ∧
      (result = some e ∨ result = none ∧ x.FinishedAfter id) := by
  refine ⟨x.supervisor.recordedExit id, ?_, h.recordedExit he⟩
  unfold Supervisor.askStop
  rw [if_neg (h.not_held hr)]

/-- A start is refused only because of the run in the place. -/
theorem place_of_alreadyRunning {c : Command} {spawned : Except OsError Nat} {process : Option Int}
    (hs : (x.supervisor.start c spawned).1 = .error (.alreadyRunning id process)) :
    x.supervisor.place = some id := by
  unfold Supervisor.start at hs
  split at hs
  · next r hcurrent =>
    obtain ⟨j, hj, hr⟩ := Option.bind_eq_some_iff.mp hcurrent
    rw [hj, ← id_of_find? hr]
    cases hs
    rfl
  · cases hs
  · cases hs

/-! ### All together -/

/-- What can be said of a run by what it has reported. -/
structure LastWord (grace : Duration) (σ : Nat → Move) : Prop where
  /-- The exit is reported at most once, and nothing stands behind it. -/
  last : ∀ n id r e, (after grace σ n).supervisor.find? id = some r → .completed e ∈ r.events →
    ∃ body, r.events = body ++ [.completed e] ∧ ∀ e', .completed e' ∉ body
  /-- Nothing is reported after it. -/
  silent : ∀ n m id r e, n ≤ m → (after grace σ n).supervisor.find? id = some r →
    .completed e ∈ r.events →
    ∃ r', (after grace σ m).supervisor.find? id = some r' ∧ r'.events = r.events
  /-- The events come to their end only after it. -/
  closed : ∀ n id r, (after grace σ n).supervisor.find? id = some r → r.hasSender = false →
    ∃ e, .completed e ∈ r.events
  /-- The lines of a stream that were reported begin the lines of what was read of it, and are all of
  them if its reader has ended by itself. -/
  lines : ∀ n id r t, (after grace σ n).supervisor.find? id = some r →
    Program.linesOf t r.events <+: allLines ((after grace σ n).octets id t) ∧
      ((after grace σ n).isComplete id t = true →
        Program.linesOf t r.events = allLines ((after grace σ n).octets id t))
  /-- When the exit can be received it is recorded, and the run has left the place. -/
  settled : ∀ n m id r e, n ≤ m → (after grace σ n).supervisor.find? id = some r →
    .completed e ∈ r.events →
    (after grace σ m).exit? id = some e ∧ (after grace σ m).supervisor.place ≠ some id
  /-- A stop of the run has the same exit then, unless a later run has finished. -/
  stopped : ∀ n m id r e, n ≤ m → (after grace σ n).supervisor.find? id = some r →
    .completed e ∈ r.events →
    ∃ result, (after grace σ m).supervisor.askStop id = (.ended result, (after grace σ m).supervisor, []) ∧
      (result = some e ∨ result = none ∧ (after grace σ m).FinishedAfter id)
  /-- All calls that report an exit of the run, at any time, report this one. -/
  reported : ∀ n m id r e me c e', (after grace σ n).supervisor.find? id = some r →
    .completed e ∈ r.events → (after grace σ m).calls me = some c → c.reports? = some (id, e') → e' = e
  /-- No start is refused because of the run any more. -/
  free : ∀ n m id r e c spawned process, n ≤ m → (after grace σ n).supervisor.find? id = some r →
    .completed e ∈ r.events →
    ((after grace σ m).supervisor.start c spawned).1 ≠ .error (.alreadyRunning id process)

/-- **The exit is the last word of a run**, in every order of what its readers and its watcher do. -/
theorem lastWord (grace : Duration) (σ : Nat → Move) : LastWord grace σ where
  last n id r e hr he := ((written_after grace σ n hr).over he).2
  silent n m id r e hnm hr he := by
    obtain ⟨r', hr', -, hevents⟩ := silent_later hr ((written_after grace σ n hr).over he).1 hnm
    exact ⟨r', hr', hevents⟩
  closed n id r hr hclosed := by
    have hover : r.isOver = true := by
      unfold Run.hasSender at hclosed
      cases ho : r.isOver with
      | true => rfl
      | false => rw [ho] at hclosed; cases hclosed
    unfold Run.isOver at hover
    split at hover
    · next e hw => exact ⟨e, (written_after grace σ n hr).completed hw⟩
    · cases hover
  lines n id r t hr :=
    have hshows := (written_after grace σ n hr).shows t
    ⟨hshows.begins, hshows.all⟩
  settled n m id r e hnm hr he :=
    have hsettled := settled hr he hnm
    ⟨hsettled.1, (placed_after grace σ m).not_held hsettled.2⟩
  stopped n m id r e hnm hr he :=
    have hsettled := settled hr he hnm
    (placed_after grace σ m).askStop hsettled.2 hsettled.1
  reported n m id r e me c e' hr he hc he' := by
    -- both exits are the one that is recorded at the later time
    have hexit := (settled hr he (Nat.le_max_left n m)).1
    have hcall := exit?_stays (Nat.le_max_right n m) ((fits_after grace σ m me c hc).reports he')
    exact Option.some.inj (hcall.symm.trans hexit)
  free n m id r e c spawned process hnm hr he hs :=
    (placed_after grace σ m).not_held (settled hr he hnm).2 (place_of_alreadyRunning hs)

/-- A program whose output is kept open by another one: the reader is made to end in the middle of a line,
while the one of the error output has come to its end. -/
def heldOpen : List Move :=
  [.start listing (.ok 4), .read ⟨1⟩ .out [97, 13, 10, 98], .read ⟨1⟩ .err [99], .finish ⟨1⟩ .err,
    .watch ⟨1⟩ (some (.code 3)), .watch ⟨1⟩ none, .clock 100, .watch ⟨1⟩ none, .read ⟨1⟩ .out [10]] ++
    List.replicate 5 (.watch ⟨1⟩ none)

example : let x := heldOpen.foldl move (new ⟨100⟩)
    (x.supervisor.find? ⟨1⟩).map (·.events) =
      some [.stdout "a", .stderr "c", .completed ⟨some 3, .exited⟩] ∧
    x.octets ⟨1⟩ .out = [97, 13, 10, 98] ∧ x.isComplete ⟨1⟩ .out = false ∧
    x.isComplete ⟨1⟩ .err = true := by
  decide +kernel

end Supervision
end DebugHost
