import DebugHost.Proofs.Session.Results

/-! # The runs of a debugger are orders of beats

A debugger lets its tasks take turns, and a task goes on in a turn until it has to wait. Every turn is a
sequence of beats in which no user acts but those whose calls are under way (`Debugger.proceeds_turn`),
and so is everything that a debugger does and everything else that comes from outside. So what holds in
every order of beats holds in every run, also of what holds only where nobody looks for the answers of
others (`Debugger.Plays`). -/

namespace DebugHost

open DebugHost.Session

namespace Debugger

/-- A beat in which nobody looks for the answers of others. -/
abbrev OwnBeat := { b : Beat (Except DebugError Unit) // looks b = false }

/-- The debugger after such a beat. -/
def ownBeat (d : Resumer) (b : OwnBeat) : Resumer := d.beat b.1

/-- Beats in which nobody looks for the answers of others lead from one debugger to another. -/
abbrev Plays (d d' : Resumer) : Prop := DebugHost.Leads ownBeat d d'

theorem plays_beat (d : Resumer) {b : Beat (Except DebugError Unit)} (h : looks b = false) :
    Plays d (d.beat b) :=
  DebugHost.Leads.one d (⟨b, h⟩ : OwnBeat)

variable {d d' : Resumer}

/-- **What beats lead to is reached in an order of beats.** -/
theorem Plays.schedule (h : Plays d d') : ∃ σ n, d.played σ n = d' ∧ Private d σ := by
  obtain ⟨σ, n, hn⟩ := DebugHost.Leads.schedule ⟨.session, rfl⟩ h
  have hsame : ∀ n, d.played (fun k => (σ k).1) n = reached ownBeat d σ n := by
    intro n
    induction n with
    | zero => rfl
    | succ n ih => exact congrArg (fun x => x.beat (σ n).1) ih
  exact ⟨fun k => (σ k).1, n, (hsame n).trans hn, private_of_looks fun m => (σ m).2⟩

theorem Plays.orderly (h : Plays d d') (hd : d.Orderly) : d'.Orderly := by
  induction h with
  | refl => exact hd
  | tail b _ ih => exact orderly_beat ih b.1

/-! ### Beats in which no other user acts -/

/-- Whether in a beat no other user acts. That the program has exited may be told. -/
def lone : Beat (Except DebugError Unit) → Bool
  | .resume .. => false
  | .other (.act _ (.post (.exited _))) => true
  | .other (.act ..) => false
  | _ => true

/-- A beat in which no other user acts. -/
abbrev LoneBeat := { b : Beat (Except DebugError Unit) // lone b = true }

/-- The debugger after such a beat. -/
def loneBeat (d : Resumer) (b : LoneBeat) : Resumer := d.beat b.1

/-- Beats in which no other user acts lead from one debugger to another. -/
abbrev Proceeds (d d' : Resumer) : Prop := DebugHost.Leads loneBeat d d'

theorem proceeds_beat (d : Resumer) {b : Beat (Except DebugError Unit)} (h : lone b = true) :
    Proceeds d (d.beat b) :=
  DebugHost.Leads.one d (⟨b, h⟩ : LoneBeat)

/-- Who does not act does not look for answers. -/
theorem looks_of_lone {b : Beat (Except DebugError Unit)} (h : lone b = true) : looks b = false := by
  unfold looks
  split
  · cases h
  · rfl

theorem Proceeds.plays (h : Proceeds d d') : Plays d d' := by
  induction h with
  | refl => exact .refl
  | tail b _ ih => exact .tail (⟨b.1, looks_of_lone b.2⟩ : OwnBeat) ih

/-- Schedule, log and output may change at any time. -/
theorem proceeds_aside (hn : d'.now = d.now) (hl : d'.link = d.link) (hr : d'.room = d.room)
    (ht : d'.tasks = d.tasks) (hk : d'.nextTask = d.nextTask) (hf : d'.finished = d.finished) :
    Proceeds d d' := by
  have h := proceeds_beat d (b := .aside d') rfl
  have hd : d.beat (.aside d') = d' := by
    simp only [beat, ← hn, ← hl, ← hr, ← ht, ← hk, ← hf]
  rw [hd] at h
  exact h

/-! ### The numbers of tasks -/

/-- The tasks have numbers that come before the next. -/
def Counted (d : Resumer) : Prop := ∀ p ∈ d.tasks, p.1 < d.nextTask

theorem counted_of_tasks (h : d.Counted) (ht : d'.tasks = d.tasks) (hn : d'.nextTask = d.nextTask) :
    d'.Counted := fun p hp => hn ▸ h p (ht ▸ hp)

theorem counted_without (h : d.Counted) (me : Nat) : (d.without me).Counted :=
  fun p hp => h p (List.mem_filter.mp hp).1

theorem counted_put (h : d.Counted) {me : Nat} (hme : me < d.nextTask)
    (t : Task (Except DebugError Unit)) : (d.put me t).Counted := by
  intro p hp
  rcases mem_put hp with hp | rfl
  · exact h p hp
  · exact hme

theorem counted_spawn (h : d.Counted) (t : Task (Except DebugError Unit)) : (d.spawn t).Counted := by
  intro p hp
  rcases List.mem_append.mp hp with hp | hp
  · exact Nat.lt_succ_of_lt (h p hp)
  · rw [List.mem_singleton.mp hp]
    exact Nat.lt_succ_self _

theorem counted_effects (h : d.Counted) (es : List Effect) : (es.foldl effect d).Counted := by
  induction es generalizing d with
  | nil => exact h
  | cons e es ih =>
    refine ih ?_
    cases e with
    | sent x epoch ticket => exact counted_spawn (d := d.signal .toWrite) h _
    | _ => exact h

theorem counted_stride (h : d.Counted) (me : Nat) : (d.stride me).Counted := by
  have hpace (a : Action) {t : Task (Except DebugError Unit)} (ht : d.task? me = some t)
      (t' : Task (Except DebugError Unit)) : (((d.without me).attempt me a).1.put me t').Counted := by
    obtain ⟨htasks, hnext, -⟩ := attempt_keeps (d.without me) me a
    refine counted_put (counted_of_tasks (counted_without h me) htasks hnext) ?_ t'
    rw [hnext]
    exact h _ (task_mem ht)
  cases strides d me with
  | idle hd => rw [hd]; exact h
  | watch a next ht hd => rw [hd, pace_fst]; exact hpace a ht _
  | watchOver _ hd => rw [hd]; exact counted_without h me
  | call id a next ht hd => rw [hd, pace_fst]; exact hpace a ht _
  | callOver id r _ hd => rw [hd]; exact counted_without h me

theorem counted_beat (h : d.Counted) (b : Beat (Except DebugError Unit)) : (d.beat b).Counted := by
  cases b with
  | task me => exact counted_stride h me
  | session =>
    simp only [beat, attend]
    split
    · have hwork := work_leave d
      exact counted_of_tasks h (congrArg Work.tasks hwork) (congrArg Work.nextTask hwork)
    · split
      · exact h
      · next i room hn =>
        have hstepped : (({ d with room := room } : Resumer).stepped i).Counted := h
        exact counted_effects hstepped _
  | resume id kind thread => exact counted_spawn h _
  | other m =>
    simp only [beat]
    split
    · next hm =>
      by_cases ha : ∃ me a, m = .act me a
      · obtain ⟨me, a, rfl⟩ := ha
        obtain ⟨htasks, hnext, -⟩ := attempt_keeps d me a
        exact counted_of_tasks h htasks hnext
      · have hwork := work_move d hm fun me a h => ha ⟨me, a, h⟩
        exact counted_of_tasks h (congrArg Work.tasks hwork) (congrArg Work.nextTask hwork)
    · exact h
  | lift me =>
    simp only [beat]
    split
    · exact counted_without h me
    · exact h
  | lay me t =>
    simp only [beat]
    split
    · next hlay => exact counted_put h hlay.2.1 t
    · exact h
  | aside e => exact h

theorem Proceeds.counted (h : Proceeds d d') (hd : d.Counted) : d'.Counted := by
  induction h with
  | refl => exact hd
  | tail b _ ih => exact counted_beat ih b.1

/-! ### Turns -/

theorem task?_put {me : Nat} {t : Task (Except DebugError Unit)} (h : ∀ p ∈ d.tasks, p.1 ≠ me) :
    (d.put me t).task? me = some t := by
  have hnone : d.tasks.find? (·.1 == me) = none :=
    List.find?_eq_none.mpr fun p hp => by simpa using h p hp
  simp [task?, put, List.find?_append, hnone]

theorem without_put {me : Nat} {t : Task (Except DebugError Unit)} (h : ∀ p ∈ d.tasks, p.1 ≠ me) :
    (d.put me t).without me = d := by
  have hall : d.tasks.filter (·.1 != me) = d.tasks :=
    List.filter_eq_self.mpr fun p hp => by simpa using h p hp
  simp [without, put, List.filter_append, hall]

theorem mem_without {me : Nat} {p : Nat × Task (Except DebugError Unit)}
    (hp : p ∈ (d.without me).tasks) : p.1 ≠ me := by
  simpa using (List.mem_filter.mp hp).2

/-- What a turn leads to: `f` is what the task is with the rest of a script, `g` what comes of its
result. -/
def conclude {α : Type} (me : Nat) (f : Script α → Task (Except DebugError Unit))
    (g : α → Resumer → Resumer) : Resumer × Halt α (Script α) → Resumer
  | (d, .over a) => g a d
  | (d, .waiting s _ _) => d.put me (f s)

/-- The task attempts one action after the other. -/
theorem proceeds_follow {α : Type} {me : Nat} {f : Script α → Task (Except DebugError Unit)}
    {g : α → Resumer → Resumer}
    (hact : ∀ (d : Resumer) a next, d.task? me = some (f (.act a next)) →
      d.stride me = ((d.without me).pace me a next).1.put me (f ((d.without me).pace me a next).2))
    (hdone : ∀ (d : Resumer) a, d.task? me = some (f (.done a)) → d.stride me = g a (d.without me))
    (s : Script α) (d : Resumer) (h : d.task? me = some (f s)) :
    Proceeds d (conclude me f g (follow me s (d.without me))) := by
  induction s generalizing d with
  | done a =>
    have hbeat := proceeds_beat d (b := .task me) rfl
    rw [beat, hdone d a h] at hbeat
    exact hbeat
  | act a next ih =>
    have hbeat := proceeds_beat d (b := .task me) rfl
    rw [beat, hact d a next h] at hbeat
    have htasks := (attempt_keeps (d.without me) me a).1
    unfold pace at hbeat
    unfold follow
    split
    · next d' r hr =>
      rw [hr] at hbeat htasks
      have hown : ∀ p ∈ d'.tasks, p.1 ≠ me := fun p hp => mem_without (htasks ▸ hp)
      have hrest := ih r (d'.put me (f (next r))) (task?_put hown)
      rw [without_put hown] at hrest
      exact hbeat.trans hrest
    · next d' ss deadline hr =>
      rw [hr] at hbeat
      exact hbeat

/-- A turn of a task that waits for the answer to a resume. -/
theorem proceeds_watch {me : Nat} {s : Script Unit} (h : d.task? me = some (.watch s)) :
    Proceeds d (conclude me .watch (fun _ d => d) (follow me s (d.without me))) :=
  proceeds_follow (fun d a next h => by simp only [stride, h]) (fun d a h => by simp only [stride, h]) s d h

/-- A turn of a call. -/
theorem proceeds_call {me id : Nat} {s : Script (Except DebugError Unit)}
    (h : d.task? me = some (.call id s)) :
    Proceeds d (conclude me (.call id) (fun r d => { d with finished := d.finished ++ [(id, r)] })
      (follow me s (d.without me))) :=
  proceeds_follow (fun d a next h => by simp only [stride, h]) (fun d a h => by simp only [stride, h]) s d h

/-- A number that belongs to none of the tasks, and to none that is to come. -/
def Absent (d : Resumer) (me : Nat) : Prop := (∀ p ∈ d.tasks, p.1 ≠ me) ∧ me < d.nextTask

theorem absent_of_tasks {me : Nat} (h : d.Absent me) (ht : d'.tasks = d.tasks)
    (hn : d'.nextTask = d.nextTask) : d'.Absent me :=
  ⟨ht ▸ h.1, hn ▸ h.2⟩

theorem absent_effects {me : Nat} (h : d.Absent me) (es : List Effect) :
    (es.foldl effect d).Absent me := by
  induction es generalizing d with
  | nil => exact h
  | cons e es ih =>
    refine ih ?_
    cases e with
    | sent x epoch ticket =>
      refine ⟨fun p hp => ?_, Nat.lt_succ_of_lt h.2⟩
      rcases List.mem_append.mp hp with hp | hp
      · exact h.1 p hp
      · rw [List.mem_singleton.mp hp]
        exact Nat.ne_of_gt h.2
    | _ => exact h

theorem proceeds_readAll {me : Nat} (fuel : Nat) (h : d.Absent me) :
    Proceeds d (readAll fuel d).1 ∧ (readAll fuel d).1.Absent me := by
  induction fuel generalizing d with
  | zero => exact ⟨.refl, h⟩
  | succ fuel ih =>
    have hstep : Proceeds d (d.afterStep d.link.read).passReports :=
      (proceeds_beat d (b := .other .read) rfl).trans (proceeds_beat _ (b := .other .pass) rfl)
    have hwork : (d.afterStep d.link.read).passReports.work = d.work :=
      (work_passReports _).trans (work_afterStep d _)
    have habsent : (d.afterStep d.link.read).passReports.Absent me :=
      absent_of_tasks h (congrArg Work.tasks hwork) (congrArg Work.nextTask hwork)
    unfold readAll
    simp only
    split
    · exact ⟨hstep, habsent⟩
    · exact ⟨hstep, habsent⟩
    · exact ⟨hstep.trans (ih habsent).1, (ih habsent).2⟩

theorem proceeds_writeAll {me : Nat} (fuel : Nat) (h : d.Absent me) :
    Proceeds d (writeAll fuel d).1 ∧ (writeAll fuel d).1.Absent me := by
  induction fuel generalizing d with
  | zero => exact ⟨.refl, h⟩
  | succ fuel ih =>
    have hstep : Proceeds d (d.afterStep d.link.write) := proceeds_beat d (b := .other .write) rfl
    have hwork : (d.afterStep d.link.write).work = d.work := work_afterStep d _
    have habsent : (d.afterStep d.link.write).Absent me :=
      absent_of_tasks h (congrArg Work.tasks hwork) (congrArg Work.nextTask hwork)
    unfold writeAll
    simp only
    split
    · exact ⟨hstep, habsent⟩
    · exact ⟨hstep, habsent⟩
    · exact ⟨hstep.trans (ih habsent).1, (ih habsent).2⟩

theorem proceeds_takeAll {me : Nat} (fuel : Nat) (h : d.Absent me) :
    Proceeds d (takeAll fuel d).1 ∧ (takeAll fuel d).1.Absent me := by
  induction fuel generalizing d with
  | zero => exact ⟨.refl, h⟩
  | succ fuel ih =>
    have hbeat : Proceeds d d.attend := proceeds_beat d (b := .session) rfl
    unfold attend at hbeat
    unfold takeAll
    split
    · next ho =>
      have hover : d.Over := ho
      rw [if_pos hover] at hbeat
      have hwork := work_leave d
      exact ⟨hbeat, absent_of_tasks h (congrArg Work.tasks hwork) (congrArg Work.nextTask hwork)⟩
    · next ho =>
      have hgoing : ¬ d.Over := ho
      rw [if_neg hgoing] at hbeat
      split
      · exact ⟨.refl, h⟩
      · next i room hr =>
        rw [hr] at hbeat
        have hstepped : (({ d with room := room } : Resumer).stepped i).Absent me :=
          absent_of_tasks h rfl rfl
        have habsent : (({ d with room := room } : Resumer).takeInput i).Absent me :=
          absent_effects hstepped _
        exact ⟨hbeat.trans (ih habsent).1, (ih habsent).2⟩

/-- A task without a script is taken up again where it has to wait. -/
theorem proceeds_park {me : Nat} {t : Task (Except DebugError Unit)} (ht : bare t = true)
    (h : d.Absent me) (ss : List Signal) (deadline : Option Nat) : Proceeds d (d.park me t ss deadline) := by
  have hbeat := proceeds_beat d (b := .lay me t) rfl
  rw [beat, if_pos ⟨ht, h.2, h.1⟩] at hbeat
  exact hbeat.trans (proceeds_aside rfl rfl rfl rfl rfl rfl)

/-- **A turn is a sequence of beats.** -/
theorem proceeds_turn (h : d.Counted) (me : Nat) : Proceeds d (d.turn me) := by
  unfold turn
  split
  · exact .refl
  · next k t hf =>
    have ht : d.task? me = some t := by simp only [task?, hf, Option.map_some]
    have habsent : (d.without me).Absent me :=
      ⟨fun p hp => mem_without hp, h _ (task_mem ht)⟩
    have hlift : bare t = true → Proceeds d (d.without me) := by
      intro hb
      have hbeat := proceeds_beat d (b := .lift me) rfl
      rw [beat, if_pos (by rw [ht]; exact hb)] at hbeat
      exact hbeat
    simp only
    rw [show ({ d with tasks := d.tasks.filter (·.1 != me) } : Resumer) = d.without me from rfl]
    cases t with
    | reader =>
      obtain ⟨hp, ha⟩ := proceeds_readAll (d.link.inbound.source.size + 2) habsent
      simp only
      split
      · next hr => rw [hr] at hp ha; exact ((hlift rfl).trans hp).trans (proceeds_park rfl ha ..)
      · next hr => rw [hr] at hp; exact (hlift rfl).trans hp
    | writer =>
      obtain ⟨hp, ha⟩ := proceeds_writeAll (d.link.connection.queue.length + 2) habsent
      simp only
      split
      · next hr => rw [hr] at hp ha; exact ((hlift rfl).trans hp).trans (proceeds_park rfl ha ..)
      · next hr => rw [hr] at hp; exact (hlift rfl).trans hp
    | session =>
      obtain ⟨hp, ha⟩ := proceeds_takeAll
        (d.room.inbox.length + d.room.commands.length + 2) habsent
      simp only
      split
      · next hr => rw [hr] at hp ha; exact ((hlift rfl).trans hp).trans (proceeds_park rfl ha ..)
      · next hr => rw [hr] at hp; exact (hlift rfl).trans hp
    | watch s =>
      have hp := proceeds_watch ht
      simp only
      split
      · next hr => rw [hr] at hp; exact hp
      · next hr => rw [hr] at hp; exact hp.trans (proceeds_aside rfl rfl rfl rfl rfl rfl)
    | call id s =>
      have hp := proceeds_call ht
      simp only
      split
      · next hr => rw [hr] at hp; exact hp
      · next hr => rw [hr] at hp; exact hp.trans (proceeds_aside rfl rfl rfl rfl rfl rfl)

theorem proceeds_settleWithin (fuel : Nat) (h : d.Counted) : Proceeds d (settleWithin fuel d) := by
  induction fuel generalizing d with
  | zero => exact .refl
  | succ fuel ih =>
    unfold settleWithin
    split
    · exact .refl
    · next me rest _ =>
      have haside : Proceeds d { d with schedule := { d.schedule with ready := rest } } :=
        proceeds_aside rfl rfl rfl rfl rfl rfl
      have hturn := haside.trans (proceeds_turn (haside.counted h) me)
      exact hturn.trans (ih (Proceeds.counted hturn h))

theorem proceeds_settle (h : d.Counted) : Proceeds d d.settle := proceeds_settleWithin turnLimit h

/-! ### What comes from outside -/

theorem proceeds_setTime (h : d.Counted) (now : Nat) : Proceeds d (d.setTime now) := by
  have hclock : Proceeds d { d with now := now, schedule := d.schedule.expire now } :=
    (proceeds_beat d (b := .other (.clock now)) rfl).trans (proceeds_aside rfl rfl rfl rfl rfl rfl)
  exact hclock.trans (proceeds_settle (Proceeds.counted hclock h))

theorem proceeds_advanceTo (goal fuel : Nat) (h : d.Counted) : Proceeds d (advanceTo goal fuel d) := by
  induction fuel generalizing d with
  | zero => exact proceeds_setTime h goal
  | succ fuel ih =>
    unfold advanceTo
    split
    · exact proceeds_setTime h goal
    · next t _ =>
      split
      · have hnow := proceeds_setTime h (max d.now t)
        exact hnow.trans (ih (Proceeds.counted hnow h))
      · exact proceeds_setTime h goal

/-- **Time passes by beats.** -/
theorem proceeds_advance (h : d.Counted) (millis : Nat) : Proceeds d (d.advance millis) :=
  proceeds_advanceTo (d.now + millis) millis h

/-- Octets, the end of the stream and the like come from outside by beats. -/
theorem proceeds_foreign (d : Resumer) {m : Move (Except DebugError Unit)} (hm : m.foreign = true)
    (hl : lone (.other m) = true) : Proceeds d (d.move m) := by
  have hbeat := proceeds_beat d (b := .other m) hl
  rw [beat, if_pos hm] at hbeat
  exact hbeat

/-! ### Where the calls let the program go on -/

/-- **A turn is a sequence of beats** in which nobody looks for the answers of others. -/
theorem plays_turn (h : d.Orderly) (me : Nat) : Plays d (d.turn me) :=
  (proceeds_turn h.numbered me).plays

theorem plays_settle (h : d.Orderly) : Plays d d.settle := (proceeds_settle h.numbered).plays

theorem plays_advance (h : d.Orderly) (millis : Nat) : Plays d (d.advance millis) :=
  (proceeds_advance h.numbered millis).plays

/-- A user begins to let the program go on. -/
theorem plays_resume (d : Resumer) (id : Nat) (kind : StepKind) (thread : Int) :
    Plays d (d.call id (resume kind thread)) :=
  plays_beat d (b := .resume id kind thread) rfl

/-- Octets, the end of the stream and the like come from outside by beats. -/
theorem plays_foreign (d : Resumer) {m : Move (Except DebugError Unit)} (hm : m.foreign = true)
    (hl : looks (.other m) = false) : Plays d (d.move m) := by
  have hbeat := plays_beat d (b := .other m) hl
  rw [beat, if_pos hm] at hbeat
  exact hbeat

/-- **A session begins, and only beats follow.** -/
theorem plays_startSession (h : d.Idle) (id : SessionId) (attached : Bool) :
    ∃ d' : Resumer, d'.Idle ∧ Plays (d'.fresh id attached) (d.startSession id attached) := by
  let d' : Resumer := (d.record [(Room.open_ id attached).state.startRecord]).spawn .session
  have htasks : d'.tasks = d.tasks ++ [(d.nextTask, .session)] := rfl
  have hidle : d'.Idle := by
    refine ⟨?_, fun p hp => ?_, fun p hp => ?_, h.unfinished, h.requests⟩
    · rw [htasks, List.map_append]
      refine List.Nodup.append h.distinct (List.nodup_singleton _) fun k hk hk' => ?_
      obtain ⟨p, hp, rfl⟩ := List.mem_map.mp hk
      exact Nat.ne_of_lt (h.numbered p hp) (List.mem_singleton.mp hk')
    · rcases List.mem_append.mp (htasks ▸ hp) with hp | hp
      · exact Nat.lt_succ_of_lt (h.numbered p hp)
      · rw [List.mem_singleton.mp hp]
        exact Nat.lt_succ_self _
    · rcases List.mem_append.mp (htasks ▸ hp) with hp | hp
      · exact h.bare p hp
      · rw [List.mem_singleton.mp hp]
        rfl
  exact ⟨d', hidle, plays_settle (booked_fresh hidle id attached).orderly⟩

/-! ### A beginning -/

theorem connect_eq {ρ : Type} (timeout : Duration) :
    (connect timeout : Debugger ρ) =
      { link := .start timeout
        tasks := [(0, .writer), (1, .reader)]
        nextTask := 2
        schedule := ⟨[], [⟨0, [.toWrite, .closed], none⟩, ⟨1, [.arrival, .closed], none⟩]⟩ } :=
  rfl

/-- A session on a new connection: reader, writer and session wait, and nothing has been done. -/
theorem startSession_connect {ρ : Type} (timeout : Duration) (id : SessionId) (attached : Bool) :
    (connect timeout : Debugger ρ).startSession id attached =
      { link := .start timeout
        room := .open_ id attached
        tasks := [(0, .writer), (1, .reader), (2, .session)]
        nextTask := 3
        schedule := ⟨[], [⟨0, [.toWrite, .closed], none⟩, ⟨1, [.arrival, .closed], none⟩,
          ⟨2, [.input], none⟩]⟩
        log := [(Room.open_ id attached).state.startRecord] } := by
  rw [connect_eq]
  cases attached <;> rfl

end Debugger
end DebugHost
