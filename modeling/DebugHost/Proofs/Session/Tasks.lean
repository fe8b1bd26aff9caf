import DebugHost.Proofs.Debugger.Requests

/-! # The tasks of resumes

Two tasks serve a resume. The call of the user gives the session its command and waits for the outcome
of its ticket. When the session has sent the request, a second task waits for the answer and tells what
came of it (`Wait`). The tasks of a debugger whose calls are resumes are these and those of reader,
writer and session, each under a number of its own (`Debugger.Orderly`), so that there are few things
that a beat can be (`Debugger.Beats`). -/

namespace DebugHost

namespace Session

/-! ### The scripts of a resume -/

/-- A resume that has given its command waits for the outcome. -/
def awaiting (ticket : Nat) : Script (Except DebugError Unit) :=
  .act (.outcome ticket) fun o => .done (o.getD (.ok ()))

/-- A resume gives its command and waits for the outcome, if there is still a session to take it. -/
theorem resume_eq (kind : StepKind) (thread : Int) :
    resume kind thread = .act (.order (.resume kind thread)) fun
      | none => .done (.ok ())
      | some ticket => awaiting ticket := by
  unfold resume
  show Script.act _ _ = _
  congr 1

/-- How far the task has come that waits for the answer to a resume. -/
inductive Wait where
  /-- It has not begun to wait. -/
  | begins (seq : Int) (command : String) (epoch ticket : Nat)
  /-- It waits for the answer. -/
  | waits (x : Exchange) (epoch ticket : Nat)
  /-- It has a failure for the session. -/
  | fails (e : DebugError) (epoch ticket : Nat)
  /-- It has an outcome to tell. -/
  | tells (r : Except DebugError Unit) (ticket : Nat)
  /-- There is nothing left to do. -/
  | gone

/-- The ticket of a task that waits for the answer to a resume. -/
def Wait.ticket? : Wait → Option Nat
  | .begins _ _ _ ticket => some ticket
  | .waits _ _ ticket => some ticket
  | .fails _ _ ticket => some ticket
  | .tells _ ticket => some ticket
  | .gone => none

/-- Whether a failure goes back to the session. -/
def goesBack : DebugError → Bool
  | .adapterRejected .. => true
  | .timeout .. => true
  | _ => false

/-- How far the task has come once the answer is known. -/
def Wait.answered (epoch ticket : Nat) : Except DebugError Response → Wait
  | .ok _ => .tells (.ok ()) ticket
  | .error e => if goesBack e then .fails e epoch ticket else .tells (.error e) ticket

/-- The failure goes back to the session, or is told if the session is not there to take it. -/
def giveBack (e : DebugError) (epoch ticket : Nat) : Script Unit :=
  .act (.post (.resumeFailed epoch e ticket)) fun
    | true => .done ()
    | false => .act (.reply ticket (.error e)) .done

/-- What there is to do once the answer is known. -/
def tellAnswer (epoch ticket : Nat) : Except DebugError Response → Script Unit
  | .ok _ => .act (.reply ticket (.ok ())) .done
  | .error e =>
    if goesBack e then giveBack e epoch ticket else .act (.reply ticket (.error e)) .done

/-- What the task still does that has come so far. -/
def Wait.script : Wait → Script Unit
  | .begins seq command epoch ticket =>
    .act .limit fun p => .act (.response ⟨seq, command, some p.1⟩) (tellAnswer epoch ticket)
  | .waits x epoch ticket => .act (.response x) (tellAnswer epoch ticket)
  | .fails e epoch ticket => giveBack e epoch ticket
  | .tells r ticket => .act (.reply ticket r) .done
  | .gone => .done ()

/-- How far a task has come. What it would do at the end of its time gives away epoch and ticket. -/
def Wait.ofScript : Script Unit → Wait
  | .act .limit next =>
    match next (0, ⟨0⟩) with
    | .act (.response x) next =>
      match next (.error (.timeout x.command ⟨0⟩)) with
      | .act (.post (.resumeFailed epoch _ ticket)) _ => .begins x.seq x.command epoch ticket
      | _ => .gone
    | _ => .gone
  | .act (.response x) next =>
    match next (.error (.timeout x.command ⟨0⟩)) with
    | .act (.post (.resumeFailed epoch _ ticket)) _ => .waits x epoch ticket
    | _ => .gone
  | .act (.post (.resumeFailed epoch e ticket)) _ => .fails e epoch ticket
  | .act (.reply ticket r) _ => .tells r ticket
  | _ => .gone

theorem Wait.ofScript_script (w : Wait) : Wait.ofScript w.script = w := by
  cases w <;> rfl

/-- A failure goes back to the session or is told. -/
theorem Wait.answered_error (epoch ticket : Nat) (e : DebugError) :
    Wait.answered epoch ticket (.error e) = .fails e epoch ticket ∨
      Wait.answered epoch ticket (.error e) = .tells (.error e) ticket := by
  simp only [Wait.answered]
  split
  · exact Or.inl rfl
  · exact Or.inr rfl

theorem tellAnswer_eq (epoch ticket : Nat) (r : Except DebugError Response) :
    tellAnswer epoch ticket r = (Wait.answered epoch ticket r).script := by
  rcases r with e | r
  · simp only [tellAnswer, Wait.answered]
    split <;> rfl
  · rfl

theorem failed_eq (epoch ticket : Nat) (e : DebugError) :
    watchResume.failed epoch ticket e = giveBack e epoch ticket := by
  unfold watchResume.failed
  show Script.act _ _ = Script.act _ _
  congr 1
  funext taken
  cases taken <;> rfl

/-- The task bounds its wait, waits, and tells what came of it. -/
theorem watchResume_eq (x : Exchange) (epoch ticket : Nat) :
    watchResume x epoch ticket = (Wait.begins x.seq x.command epoch ticket).script := by
  unfold watchResume
  show Script.act _ _ = Script.act _ _
  congr 1
  funext p
  show Script.act _ _ = Script.act _ _
  congr 1
  funext r
  rcases r with e | r
  · cases e with
    | adapterRejected command message => exact failed_eq epoch ticket _
    | timeout command after => exact failed_eq epoch ticket _
    | _ => rfl
  · rfl

end Session

open DebugHost.Session

namespace Debugger

variable {ρ : Type}

/-! ### One action of a resume -/

/-- What comes of a task that waits for the answer to a resume when it goes on by one action. -/
inductive Watches (d : Debugger ρ) (d' : Debugger ρ) : Wait → Wait → Prop where
  | begins (seq : Int) (command : String) (epoch ticket deadline : Nat) (same : d' = d) :
    Watches d d' (.begins seq command epoch ticket)
      (.waits ⟨seq, command, some deadline⟩ epoch ticket)
  | waits (x : Exchange) (epoch ticket : Nat)
    (nothing : x.result? d.link.connection d.now = none) (same : d'.work = d.work) :
    Watches d d' (.waits x epoch ticket) (.waits x epoch ticket)
  | told (x : Exchange) (epoch ticket : Nat) (r : Except DebugError Response)
    (result : x.result? d.link.connection d.now = some r) (same : d'.work = d.work) :
    Watches d d' (.waits x epoch ticket) (.answered epoch ticket r)
  | back (e : DebugError) (epoch ticket : Nat)
    (post : d' = { d with room := d.room.post (.resumeFailed epoch e ticket) }.signal .input) :
    Watches d d' (.fails e epoch ticket) .gone
  | alone (e : DebugError) (epoch ticket : Nat) (gone : d.room.listening = false) (same : d' = d) :
    Watches d d' (.fails e epoch ticket) (.tells (.error e) ticket)
  | tells (r : Except DebugError Unit) (ticket : Nat) (reply : d' = d.reply ticket (some r)) :
    Watches d d' (.tells r ticket) .gone

theorem watches_pace (d : Debugger ρ) (me : Nat) {w : Wait} {a : Action}
    {next : a.Reply → Script Unit} (hw : w.script = .act a next) :
    ∃ w', (d.pace me a next).2 = w'.script ∧ Watches d (d.pace me a next).1 w w' := by
  cases w with
  | begins seq command epoch ticket =>
    cases hw
    exact ⟨_, rfl, .begins seq command epoch ticket _ rfl⟩
  | waits x epoch ticket =>
    cases hw
    have hwork : ((d.pace me (.response x) (tellAnswer epoch ticket)).1).work = d.work := by
      rw [pace_fst]
      exact work_attempt d me rfl
    match hs : x.standing d.link.connection d.now with
    | .waiting =>
      refine ⟨.waits x epoch ticket, ?_, .waits x epoch ticket ?_ hwork⟩
      · simp only [pace, attempt, hs, Wait.script]
      · simp only [Exchange.result?, hs]
    | .over r =>
      refine ⟨.answered epoch ticket r, ?_, .told x epoch ticket r ?_ hwork⟩
      · simp only [pace, attempt, hs, tellAnswer_eq]
      · simp only [Exchange.result?, hs]
    | .late =>
      refine ⟨.answered epoch ticket (.error (.timeout x.command d.link.connection.timeout)), ?_,
        .told x epoch ticket _ ?_ hwork⟩
      · simp only [pace, attempt, hs, tellAnswer_eq]
      · simp only [Exchange.result?, hs]
  | fails e epoch ticket =>
    cases hw
    cases hl : d.room.listening with
    | true =>
      refine ⟨.gone, ?_, .back e epoch ticket ?_⟩
      · simp only [pace, attempt, post, hl, if_true, Wait.script]
      · simp only [pace, attempt, post, hl, if_true]
    | false =>
      refine ⟨.tells (.error e) ticket, ?_, .alone e epoch ticket hl ?_⟩
      · simp only [pace, attempt, post, hl, Wait.script]; rfl
      · simp only [pace, attempt, post, hl]; rfl
  | tells r ticket =>
    cases hw
    exact ⟨.gone, rfl, .tells r ticket rfl⟩
  | gone => cases hw

/-- What comes of a resume that goes on by one action. -/
inductive Calls (d : Resumer) (d' : Resumer) :
    Script (Except DebugError Unit) → Script (Except DebugError Unit) → Prop where
  | gives (kind : StepKind) (thread : Int) (here : d.room.listening = true)
    (order : d' = { d with room := (d.room.order (.resume kind thread)).2 }.signal .input) :
    Calls d d' (resume kind thread) (awaiting d.room.nextTicket)
  | late (kind : StepKind) (thread : Int) (gone : d.room.listening = false) (same : d' = d) :
    Calls d d' (resume kind thread) (.done (.ok ()))
  | waits (ticket : Nat) (same : d' = d) : Calls d d' (awaiting ticket) (awaiting ticket)
  | ends (ticket : Nat) (o : Option (Except DebugError Unit))
    (settled : d.room.outcome? ticket = some o) (same : d' = d) :
    Calls d d' (awaiting ticket) (.done (o.getD (.ok ())))

theorem calls_resume (d : Resumer) (me : Nat) {kind : StepKind} {thread : Int} {a : Action}
    {next : a.Reply → Script (Except DebugError Unit)} (hs : resume kind thread = .act a next) :
    Calls d (d.pace me a next).1 (resume kind thread) (d.pace me a next).2 := by
  rw [resume_eq] at hs
  cases hs
  cases hl : d.room.listening with
  | true =>
    have h : d.pace me (.order (.resume kind thread)) (fun
        | none => .done (.ok ())
        | some ticket => awaiting ticket) =
        ({ d with room := (d.room.order (.resume kind thread)).2 }.signal .input,
          awaiting d.room.nextTicket) := by
      simp only [pace, attempt, hl, if_true]
      rfl
    rw [h]
    exact .gives kind thread hl rfl
  | false =>
    have h : d.pace me (.order (.resume kind thread)) (fun
        | none => .done (.ok ())
        | some ticket => awaiting ticket) = (d, .done (.ok ())) := by
      simp only [pace, attempt, hl]
      rfl
    rw [h]
    exact .late kind thread hl rfl

theorem calls_awaiting (d : Resumer) (me : Nat) {ticket : Nat} {a : Action}
    {next : a.Reply → Script (Except DebugError Unit)} (hs : awaiting ticket = .act a next) :
    Calls d (d.pace me a next).1 (awaiting ticket) (d.pace me a next).2 := by
  cases hs
  cases ho : d.room.outcome? ticket with
  | none =>
    have h : d.pace me (.outcome ticket) (fun o => .done (o.getD (.ok ()))) = (d, awaiting ticket) := by
      simp only [pace, attempt, ho]
      rfl
    rw [h]
    exact .waits ticket rfl
  | some o =>
    have h : d.pace me (.outcome ticket) (fun o => .done (o.getD (.ok ()))) =
        (d, Script.done (o.getD (.ok ()))) := by
      simp only [pace, attempt, ho]
    rw [h]
    exact .ends ticket o ho rfl

/-! ### All that a beat can be -/

/-- The tasks of resumes. -/
def Proper : Task (Except DebugError Unit) → Prop
  | .watch s => ∃ w : Wait, s = w.script
  | .call _ s => (∃ kind thread, s = resume kind thread) ∨ (∃ ticket, s = awaiting ticket) ∨
      ∃ r, s = .done r
  | _ => True

/-- The tasks have numbers of their own, and are those of resumes. -/
structure Orderly (d : Resumer) : Prop where
  distinct : (d.tasks.map (·.1)).Nodup
  numbered : ∀ p ∈ d.tasks, p.1 < d.nextTask
  proper : ∀ p ∈ d.tasks, Proper p.2

/-- What comes of a debugger in a beat. -/
inductive Beats (d : Resumer) (b : Beat (Except DebugError Unit)) (d' : Resumer) : Prop where
  /-- No work is done. -/
  | rests (same : d'.work = d.work)
  | watch (me : Nat) (w w' : Wait) (between : Resumer) (beat : b = .task me)
    (task : d.task? me = some (.watch w.script)) (watches : Watches (d.without me) between w w')
    (after : d' = between.put me (.watch w'.script))
  | watchOver (me : Nat) (task : d.task? me = some (.watch (.done ()))) (after : d' = d.without me)
  | call (me id : Nat) (s s' : Script (Except DebugError Unit)) (between : Resumer)
    (beat : b = .task me) (task : d.task? me = some (.call id s))
    (calls : Calls (d.without me) between s s') (after : d' = between.put me (.call id s'))
  | callOver (me id : Nat) (r : Except DebugError Unit) (task : d.task? me = some (.call id (.done r)))
    (after : d' = { d.without me with finished := d.finished ++ [(id, r)] })
  | takes (i : Input) (room : Room) (beat : b = .session) (going : ¬ d.Over)
    (next : d.room.next = some (i, room)) (after : d' = { d with room := room }.takeInput i)
  | leaves (beat : b = .session) (ended : d.Over) (after : d' = d.leave)
  | begins (id : Nat) (kind : StepKind) (thread : Int) (beat : b = .resume id kind thread)
    (after : d' = d.call id (resume kind thread))
  /-- Another user gives an order. -/
  | orders (o : Order) (after : d' = { d with room := (d.room.order o).2 }.signal .input)
  /-- Another user gives a command without a ticket. -/
  | posts (c : Session.Command) (silent : Room.ticket? c = none)
    (after : d' = { d with room := d.room.post c }.signal .input)
  | lifts (me : Nat) (t : Task (Except DebugError Unit)) (task : d.task? me = some t)
    (without : bare t = true) (after : d' = d.without me)
  | lays (me : Nat) (t : Task (Except DebugError Unit)) (without : bare t = true)
    (number : me < d.nextTask) (own : ∀ p ∈ d.tasks, p.1 ≠ me) (after : d' = d.put me t)

theorem task_mem {d : Debugger ρ} {me : Nat} {t : Task ρ} (h : d.task? me = some t) :
    (me, t) ∈ d.tasks := by
  obtain ⟨⟨k, t'⟩, hp, rfl⟩ := Option.map_eq_some_iff.mp h
  have hk := List.find?_some hp
  have : k = me := by simpa using hk
  subst this
  exact List.mem_of_find?_eq_some hp

theorem beats_stride {d : Resumer} (h : d.Orderly) (me : Nat) : d.Beats (.task me) (d.stride me) := by
  cases strides d me with
  | idle hd => rw [hd]; exact .rests rfl
  | watch a next ht hd =>
    obtain ⟨w, hw⟩ := h.proper _ (task_mem ht)
    obtain ⟨w', hw', hp⟩ := watches_pace (d.without me) me hw.symm
    rw [hw'] at hd
    rw [hw] at ht
    exact .watch me w w' _ rfl ht hp hd
  | watchOver ht hd => exact .watchOver me ht hd
  | call id a next ht hd =>
    rcases h.proper _ (task_mem ht) with ⟨kind, thread, hs⟩ | ⟨ticket, hs⟩ | ⟨r, hs⟩
    · have hp := calls_resume (d.without me) me hs.symm
      rw [hs] at ht
      exact .call me id _ _ _ rfl ht hp hd
    · have hp := calls_awaiting (d.without me) me hs.symm
      rw [hs] at ht
      exact .call me id _ _ _ rfl ht hp hd
    · cases hs
  | callOver id r ht hd => exact .callOver me id r ht hd

theorem beats_other (d : Resumer) (m : Move (Except DebugError Unit)) :
    d.Beats (.other m) (d.beat (.other m)) := by
  simp only [beat]
  split
  · next hm =>
    by_cases ha : ∃ me a, m = .act me a
    · obtain ⟨me, a, rfl⟩ := ha
      cases hs : speaks a with
      | false => exact .rests (work_attempt d me hs)
      | true =>
        cases a with
        | post c =>
          cases hl : d.room.listening with
          | false => exact .rests (by simp only [move, attempt, post, hl]; rfl)
          | true =>
            have hc : Room.ticket? c = none := by simpa [Move.foreign] using hm
            exact .posts c hc (by simp only [move, attempt, post, hl, if_true])
        | order o =>
          cases hl : d.room.listening with
          | false => exact .rests (by simp only [move, attempt, hl]; rfl)
          | true => exact .orders o (by simp only [move, attempt, hl, if_true])
        | reply ticket r => cases hm
        | _ => cases hs
    · exact .rests (work_move d hm fun me a h => ha ⟨me, a, h⟩)
  · exact .rests rfl

/-- **All that a beat can be.** -/
theorem beats {d : Resumer} (h : d.Orderly) (b : Beat (Except DebugError Unit)) :
    d.Beats b (d.beat b) := by
  cases b with
  | task me => exact beats_stride h me
  | session =>
    simp only [beat, attend]
    split
    · next ho => exact .leaves rfl ho rfl
    · next ho =>
      split
      · exact .rests rfl
      · next i room hr => exact .takes i room rfl ho hr rfl
  | resume id kind thread => exact .begins id kind thread rfl rfl
  | other m => exact beats_other d m
  | lift me =>
    simp only [beat]
    split
    · next hb =>
      obtain ⟨t, ht, hbare⟩ := (Option.any_eq_true _ _).mp hb
      exact .lifts me t ht hbare rfl
    · exact .rests rfl
  | lay me t =>
    simp only [beat]
    split
    · next hb => exact .lays me t hb.1 hb.2.1 hb.2.2 rfl
    · exact .rests rfl
  | aside e => exact .rests rfl

/-- A task without a script is none of a resume. -/
theorem proper_of_bare {t : Task (Except DebugError Unit)} (h : bare t = true) : Proper t := by
  cases t with
  | watch s => cases h
  | call id s => cases h
  | _ => trivial

/-! ### The tasks keep their order -/

theorem orderly_of_tasks {d d' : Resumer} (h : d.Orderly) (ht : d'.tasks = d.tasks)
    (hn : d'.nextTask = d.nextTask) : d'.Orderly :=
  ⟨by rw [ht]; exact h.distinct, by rw [ht, hn]; exact h.numbered, by rw [ht]; exact h.proper⟩

theorem orderly_without {d : Resumer} (h : d.Orderly) (me : Nat) :
    (d.without me).Orderly ∧ ∀ p ∈ (d.without me).tasks, p.1 ≠ me := by
  have hmem : ∀ p ∈ (d.without me).tasks, p ∈ d.tasks ∧ p.1 ≠ me := fun p hp => by
    simpa [without] using hp
  exact ⟨⟨h.distinct.sublist (List.filter_sublist.map _), fun p hp => h.numbered p (hmem p hp).1,
    fun p hp => h.proper p (hmem p hp).1⟩, fun p hp => (hmem p hp).2⟩

/-- A task is added under a number of its own. -/
theorem orderly_add {d : Resumer} (h : d.Orderly) {me next : Nat} (hme : ∀ p ∈ d.tasks, p.1 ≠ me)
    (hlt : me < next) (hle : d.nextTask ≤ next) {t : Task (Except DebugError Unit)} (ht : Proper t)
    {d' : Resumer} (htasks : d'.tasks = d.tasks ++ [(me, t)]) (hnext : d'.nextTask = next) :
    d'.Orderly := by
  have hmem : ∀ p ∈ d'.tasks, p ∈ d.tasks ∨ p = (me, t) := fun p hp => by
    rw [htasks] at hp
    simpa using hp
  refine ⟨?_, fun p hp => ?_, fun p hp => ?_⟩
  · rw [htasks, List.map_append]
    refine List.nodup_append.mpr ⟨h.distinct, List.pairwise_singleton _ _, ?_⟩
    intro a ha b hb
    obtain ⟨p, hp, rfl⟩ := List.mem_map.mp ha
    rw [List.mem_singleton.mp hb]
    exact hme p hp
  · rw [hnext]
    rcases hmem p hp with hp | rfl
    · exact Nat.lt_of_lt_of_le (h.numbered p hp) hle
    · exact hlt
  · rcases hmem p hp with hp | rfl
    · exact h.proper p hp
    · exact ht

theorem orderly_spawn {d : Resumer} (h : d.Orderly) {t : Task (Except DebugError Unit)}
    (ht : Proper t) : (d.spawn t).Orderly :=
  orderly_add h (fun p hp => Nat.ne_of_lt (h.numbered p hp)) (Nat.lt_succ_self _) (Nat.le_succ _) ht rfl rfl

theorem orderly_effects {d : Resumer} (h : d.Orderly) (es : List Effect) :
    (es.foldl effect d).Orderly := by
  induction es generalizing d with
  | nil => exact h
  | cons e es ih =>
    refine ih ?_
    cases e with
    | sent x epoch ticket =>
      have hp : Proper (.watch (watchResume x epoch ticket)) :=
        ⟨.begins x.seq x.command epoch ticket, watchResume_eq x epoch ticket⟩
      have hd : (d.signal .toWrite).Orderly := orderly_of_tasks h rfl rfl
      exact orderly_spawn hd hp
    | _ => exact orderly_of_tasks h rfl rfl

theorem orderly_takeInput {d : Resumer} (h : d.Orderly) (i : Input) : (d.takeInput i).Orderly := by
  have hs : (d.stepped i).Orderly := orderly_of_tasks h rfl rfl
  rw [takeInput_eq]
  exact orderly_effects hs _

theorem Watches.tasks {d d' : Debugger ρ} {w w' : Wait} (h : Watches d d' w w') :
    d'.tasks = d.tasks ∧ d'.nextTask = d.nextTask := by
  cases h with
  | begins _ _ _ _ _ hd => rw [hd]; exact ⟨rfl, rfl⟩
  | waits _ _ _ _ hw => exact ⟨congrArg Work.tasks hw, congrArg Work.nextTask hw⟩
  | told _ _ _ _ _ hw => exact ⟨congrArg Work.tasks hw, congrArg Work.nextTask hw⟩
  | back _ _ _ hd => rw [hd]; exact ⟨rfl, rfl⟩
  | alone _ _ _ _ hd => rw [hd]; exact ⟨rfl, rfl⟩
  | tells _ _ hd => rw [hd]; exact ⟨rfl, rfl⟩

theorem Calls.tasks {d d' : Resumer} {s s' : Script (Except DebugError Unit)} (h : Calls d d' s s') :
    d'.tasks = d.tasks ∧ d'.nextTask = d.nextTask := by
  cases h with
  | gives _ _ _ hd => rw [hd]; exact ⟨rfl, rfl⟩
  | late _ _ _ hd => rw [hd]; exact ⟨rfl, rfl⟩
  | waits _ hd => rw [hd]; exact ⟨rfl, rfl⟩
  | ends _ _ _ hd => rw [hd]; exact ⟨rfl, rfl⟩

theorem Calls.proper {d d' : Resumer} {s s' : Script (Except DebugError Unit)} (h : Calls d d' s s')
    (id : Nat) : Proper (.call id s') := by
  cases h with
  | gives => exact Or.inr (Or.inl ⟨_, rfl⟩)
  | late => exact Or.inr (Or.inr ⟨_, rfl⟩)
  | waits => exact Or.inr (Or.inl ⟨_, rfl⟩)
  | ends => exact Or.inr (Or.inr ⟨_, rfl⟩)

/-- A task goes on under its number. -/
theorem orderly_put {d between : Resumer} (h : d.Orderly) {me : Nat}
    {t t' : Task (Except DebugError Unit)} (ht : d.task? me = some t)
    (hb : between.tasks = (d.without me).tasks ∧ between.nextTask = d.nextTask) (hp : Proper t') :
    (between.put me t').Orderly := by
  obtain ⟨ho, hme⟩ := orderly_without h me
  exact orderly_add ho hme (h.numbered _ (task_mem ht)) (Nat.le_refl _) hp (by rw [← hb.1]; rfl) hb.2

/-- **The tasks keep their order.** -/
theorem orderly_beat {d : Resumer} (h : d.Orderly) (b : Beat (Except DebugError Unit)) :
    (d.beat b).Orderly := by
  cases beats h b with
  | rests hw => exact orderly_of_tasks h (congrArg Work.tasks hw) (congrArg Work.nextTask hw)
  | watch me w w' between _ ht hp hd =>
    have hw : Proper (.watch w'.script) := ⟨w', rfl⟩
    rw [hd]
    exact orderly_put h ht hp.tasks hw
  | watchOver me _ hd => rw [hd]; exact (orderly_without h me).1
  | call me id s s' between _ ht hp hd =>
    rw [hd]
    exact orderly_put h ht hp.tasks (hp.proper id)
  | callOver me id r _ hd =>
    rw [hd]
    exact orderly_of_tasks (orderly_without h me).1 rfl rfl
  | takes i room _ _ _ hd =>
    have hr : ({ d with room := room } : Resumer).Orderly := orderly_of_tasks h rfl rfl
    rw [hd]
    exact orderly_takeInput hr i
  | leaves _ _ hd =>
    rw [hd]
    have hw := work_leave d
    exact orderly_of_tasks h (congrArg Work.tasks hw) (congrArg Work.nextTask hw)
  | begins id kind thread _ hd => rw [hd]; exact orderly_spawn h (Or.inl ⟨kind, thread, rfl⟩)
  | orders o hd => rw [hd]; exact orderly_of_tasks h rfl rfl
  | posts c _ hd => rw [hd]; exact orderly_of_tasks h rfl rfl
  | lifts me t _ _ hd => rw [hd]; exact (orderly_without h me).1
  | lays me t hbare hlt hown hd =>
    rw [hd]
    exact orderly_add h hown hlt (Nat.le_refl _) (proper_of_bare hbare) rfl rfl

end Debugger
end DebugHost
