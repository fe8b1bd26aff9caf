import DebugHost.Proofs.Session.Alone

/-! # The deeds of a call that is alone

Where a single user uses a session, what its call does in a run is the list of its deeds
(`Debugger.deeds`). A script that obeys a law does so in every run: each deed was allowed after those
before it (`lawful`), the record of breakpoints and the requests that are on their way are those of the
deeds, and a call that is over has come to its goal (`course`). And what the deeds tell is so: a request
of which the call was told that the adapter agreed was answered before (`answered_of_agreed`), and a
session that the call has seen in another state than the first does not come back to it
(`not_launching`). -/

namespace DebugHost

open DebugHost.Session DebugHost.Script DebugHost.Traffic

namespace Debugger

variable {d d' : Resumer}

/-! ### A beat of the call -/

/-- What a task does in a beat, if it does something. -/
def deed? (d : Resumer) : Beat (Except DebugError Unit) → Option Deed
  | .task me =>
    match d.task? me with
    | some (.call _ (.act a _)) => ((d.without me).attempt me a).2.deed?
    | _ => none
  | _ => none

/-- What a deed is. -/
theorem deed?_eq_some {b : Beat (Except DebugError Unit)} {a : Action} {r : a.Reply}
    (h : d.deed? b = some ⟨a, r⟩) :
    ∃ me id next, b = .task me ∧ d.task? me = some (.call id (.act a next)) ∧
      ((d.without me).attempt me a).2 = .got r := by
  cases b with
  | task me =>
    simp only [deed?] at h
    split at h
    · next id a' next ht =>
      cases hr : ((d.without me).attempt me a').2 with
      | got r' =>
        rw [hr] at h
        cases h
        exact ⟨me, id, next, rfl, ht, hr⟩
      | wait signals deadline => rw [hr] at h; cases h
    · cases h
  | _ => cases h

/-- Where no call goes on nothing is done. -/
theorem deed?_eq_none {b : Beat (Except DebugError Unit)}
    (hidle : ∀ k, b = .task k → ∀ t, d.task? k = some t → bare t = true) : d.deed? b = none := by
  cases b with
  | task me =>
    simp only [deed?]
    split
    · next ht => cases hidle me rfl _ ht
    · rfl
  | _ => rfl

/-- How the call `id`, which is the task `me`, stands after its deeds `h`: it goes on with a script that
obeys the law, or has come to its goal. -/
inductive Stands (law : List Deed → Action → Prop) (goal : List Deed → Except DebugError Unit → Prop)
    (me id : Nat) (h : List Deed) (d : Resumer) : Prop where
  | goesOn (s : Script (Except DebugError Unit)) (task : d.task? me = some (.call id s))
    (others : ∀ p ∈ d.tasks, p.1 ≠ me → bare p.2 = true) (obeys : s.Obeys law goal h)
    (unfinished : d.finished = [])
  | returned (r : Except DebugError Unit) (reached : goal h r) (others : ∀ p ∈ d.tasks, bare p.2 = true)
    (finished : d.finished = [(id, r)])

variable {law : List Deed → Action → Prop} {goal : List Deed → Except DebugError Unit → Prop}
  {me id : Nat} {h : List Deed}

/-- A debugger in which nobody but the call has done anything to the record and sent anything. -/
structure Course (law : List Deed → Action → Prop) (goal : List Deed → Except DebugError Unit → Prop)
    (me id : Nat) (h : List Deed) (d : Resumer) : Prop where
  stands : Stands law goal me id h d
  record : d.room.breakpoints = Script.record h
  conveys : Conveys d.link (sent h)
  ticketless : d.Ticketless

theorem Course.deed {x : Option Deed} (hd : Course law goal me id h d) (hf : Follows d x d')
    (hs : Stands law goal me id (h ++ x.toList) d') (ht : d'.Ticketless) :
    Course law goal me id (h ++ x.toList) d' := by
  refine ⟨hs, ?_, ?_, ht⟩
  · rw [hf.record, hd.record]
    cases x with
    | none => rw [Option.toList_none, List.append_nil]; rfl
    | some x => exact (record_snoc h x).symm
  · rw [sent_toList]
    exact hf.conveys _ hd.conveys

/-- Others let the call stand as it does. -/
theorem Course.bystands (hd : Course law goal me id h d) (hb : Bystands d d') :
    Course law goal me id h d' := by
  have hstands : Stands law goal me id h d' := by
    cases hd.stands with
    | goesOn s ht ho hobeys hf =>
      refine .goesOn s (hb.scripts me _ rfl ht) (fun p hp hne => ?_) hobeys (hb.finished.trans hf)
      rcases hb.others p hp with hp | hp
      · exact ho p hp hne
      · exact hp
    | returned r hgoal ho hf =>
      refine .returned r hgoal (fun p hp => ?_) (hb.finished.trans hf)
      rcases hb.others p hp with hp | hp
      · exact ho p hp
      · exact hp
  have h := hd.deed hb.follows (x := none) (by rw [Option.toList_none, List.append_nil]; exact hstands)
    hb.ticketless
  rw [Option.toList_none, List.append_nil] at h
  exact h

/-- What a call has before it that has attempted an action obeys the law, too. -/
theorem obeys_pace {a : Action} {next : a.Reply → Script (Except DebugError Unit)}
    (hobeys : (Script.act a next).Obeys law goal h) (hrecord : d.room.breakpoints = Script.record h) :
    (d.pace me a next).2.Obeys law goal (h ++ (d.attempt me a).2.deed?.toList) := by
  match hr : d.attempt me a with
  | (e, .got r) =>
    have hplausible : Plausible h a r := plausible_attempt (congrArg Prod.snd hr) hrecord
    simp only [pace, hr]
    exact hobeys.2 r hplausible
  | (e, .wait signals deadline) =>
    simp only [pace, hr, Attempt.deed?, Option.toList_none, List.append_nil]
    exact hobeys

/-- **In every lone beat the call does what the law allows**, and nobody else does anything. -/
theorem course_beat (hmute : ∀ h a, law h a → mute a = true) (hd : Course law goal me id h d)
    {b : Beat (Except DebugError Unit)} (hb : lone b = true) :
    Course law goal me id (h ++ (d.deed? b).toList) (d.beat b) ∧
    ∀ x, d.deed? b = some x → law h x.action := by
  have others (hidle : ∀ k, b = .task k → ∀ t, d.task? k = some t → bare t = true) :
      Course law goal me id (h ++ (d.deed? b).toList) (d.beat b) ∧
      ∀ x, d.deed? b = some x → law h x.action := by
    rw [deed?_eq_none hidle, Option.toList_none, List.append_nil]
    exact ⟨hd.bystands (bystands_beat hd.ticketless hb hidle), fun x hx => by cases hx⟩
  cases hd.stands with
  | returned r hgoal ho hf => exact others fun k _ t ht => ho _ (task_mem ht)
  | goesOn s ht ho hobeys hf =>
    by_cases hme : b = .task me
    · subst hme
      cases s with
      | done r =>
        have hbeat : d.beat (.task me) =
            { d.without me with finished := d.finished ++ [(id, r)] } := by
          simp only [beat, stride, ht]
          rfl
        have hdeed : d.deed? (.task me) = none := by simp only [deed?, ht]
        rw [hbeat, hdeed]
        refine ⟨hd.deed (.of_same rfl rfl rfl fun _ h => h) (.returned r ?_ (fun p hp => ?_) ?_)
          hd.ticketless, fun x hx => by cases hx⟩
        · rw [Option.toList_none, List.append_nil]
          exact hobeys
        · exact ho p (List.mem_filter.mp hp).1 (mem_without hp)
        · rw [hf]; rfl
      | act a next =>
        have hbeat : d.beat (.task me) = ((d.without me).attempt me a).1.put me
            (.call id ((d.without me).pace me a next).2) := by
          simp only [beat, stride, ht, pace_fst]
        have hdeed : d.deed? (.task me) = ((d.without me).attempt me a).2.deed? := by
          simp only [deed?, ht]
        have hfollows := follows_attempt (d.without me) me a
        have hfirst : mute a = true := hmute _ _ hobeys.1
        have hwithout : (d.without me).Ticketless := hd.ticketless
        obtain ⟨hticketless, hfinished⟩ := ticketless_attempt hwithout me hfirst
        have hnext : ((d.without me).pace me a next).2.Obeys law goal
            (h ++ ((d.without me).attempt me a).2.deed?.toList) := obeys_pace hobeys hd.record
        obtain ⟨htasks, -, -⟩ := attempt_keeps (d.without me) me a
        generalize (d.without me).attempt me a = between at *
        generalize ((d.without me).pace me a next).2 = rest at *
        have hown : ∀ p ∈ between.1.tasks, p.1 ≠ me := fun p hp => mem_without (htasks ▸ hp)
        rw [hbeat, hdeed]
        refine ⟨hd.deed ⟨hfollows.record, hfollows.conveys⟩
          (.goesOn rest (task?_put hown) (fun p hp hne => ?_) hnext (hfinished.trans hf))
          hticketless, fun x hx => ?_⟩
        · rcases mem_put hp with hp | rfl
          · exact ho p (List.mem_filter.mp (htasks ▸ hp)).1 hne
          · exact absurd rfl hne
        · rw [Attempt.action_of_deed hx]
          exact hobeys.1
    · refine others fun k hk t hkt => ho _ (task_mem hkt) ?_
      rintro rfl
      exact hme hk

/-! ### Beats are moves -/

theorem leads_stride (d : Resumer) (me : Nat) : d.Leads (d.stride me) := by
  have hact (a : Action) (e : Resumer) (hn : e.now = ((d.without me).attempt me a).1.now)
      (hl : e.link = ((d.without me).attempt me a).1.link)
      (hr : e.room = ((d.without me).attempt me a).1.room) : d.Leads e := by
    have hwithout : d.Leads (d.without me) := leads_beside rfl rfl rfl
    exact (hwithout.trans (leads_move _ (.act me a))).trans (leads_beside hn hl hr)
  cases strides d me with
  | idle h => rw [h]; exact .refl
  | watch a next _ h => rw [h, pace_fst]; exact hact a _ rfl rfl rfl
  | watchOver _ h => rw [h]; exact leads_beside rfl rfl rfl
  | call id a next _ h => rw [h, pace_fst]; exact hact a _ rfl rfl rfl
  | callOver id r _ h => rw [h]; exact leads_beside rfl rfl rfl

theorem leads_attend (d : Resumer) : d.Leads d.attend := by
  unfold attend
  split
  · next ho =>
    have h := leads_move d .leave
    rw [move, if_pos ho] at h
    exact h
  · next ho =>
    split
    · exact .refl
    · next i room hn =>
      have hpick : d.move .pick = { d with room := room } := by simp only [move, hn]
      have hgoing : ¬ ({ d with room := room } : Resumer).Over := by
        show room.state.status.state ≠ _
        rw [(next_keeps hn).1]
        exact ho
      have h := (leads_move d .pick).trans (leads_move _ (.input i))
      rw [hpick, move, if_neg hgoing] at h
      exact h

/-- **A beat is a sequence of moves.** -/
theorem leads_beat (d : Resumer) (b : Beat (Except DebugError Unit)) : d.Leads (d.beat b) := by
  cases b with
  | task me => exact leads_stride d me
  | session => exact leads_attend d
  | resume id kind thread => exact leads_call d id _
  | other m =>
    simp only [beat]
    split
    · exact leads_move d m
    · exact .refl
  | lift me => simp only [beat]; split <;> exact leads_beside rfl rfl rfl
  | lay me t => simp only [beat]; split <;> exact leads_beside rfl rfl rfl
  | aside e => exact leads_beside rfl rfl rfl

/-! ### Any order of lone beats -/

variable (d : Resumer) (σ : Nat → LoneBeat)

/-- The debugger after the first `n` beats of a schedule in which nobody but the call acts. -/
def alone (n : Nat) : Resumer := d.played (fun k => (σ k).1) n

/-- The deeds of the call in the first `n` beats. -/
def deeds (n : Nat) : List Deed := (List.range n).filterMap fun k => (d.alone σ k).deed? (σ k).1

/-- The request that the call sends in beat `n`. -/
def request? (n : Nat) : Option Request := ((d.alone σ n).deed? (σ n).1).bind Deed.request?

variable {d σ} {n : Nat}

/-- **What a debugger comes to in which no other user acts** is reached in an order of lone beats. -/
theorem Proceeds.alone (h : Proceeds d d') : ∃ σ n, d.alone σ n = d' := by
  obtain ⟨σ, n, rfl⟩ := DebugHost.Leads.schedule ⟨.session, rfl⟩ h
  refine ⟨σ, n, ?_⟩
  clear h
  induction n with
  | zero => rfl
  | succ n ih => exact congrArg (fun x => x.beat (σ n).1) ih

theorem deeds_succ (n : Nat) :
    d.deeds σ (n + 1) = d.deeds σ n ++ ((d.alone σ n).deed? (σ n).1).toList := by
  rw [deeds, List.range_succ, List.filterMap_append, ← deeds]
  cases hx : (d.alone σ n).deed? (σ n).1 <;>
    simp only [List.filterMap_cons, List.filterMap_nil, hx, Option.toList_none, Option.toList_some]

theorem sent_succ (n : Nat) :
    sent (d.deeds σ (n + 1)) = sent (d.deeds σ n) ++ (d.request? σ n).toList := by
  rw [deeds_succ, sent_toList]
  rfl

theorem mem_deeds {x : Deed} :
    x ∈ d.deeds σ n ↔ ∃ k < n, (d.alone σ k).deed? (σ k).1 = some x := by
  simp only [deeds, List.mem_filterMap, List.mem_range]

/-- **What holds of a call that is alone holds after every order of beats.** -/
theorem course (hmute : ∀ h a, law h a → mute a = true) (hd : Course law goal me id [] d) (n : Nat) :
    Course law goal me id (d.deeds σ n) (d.alone σ n) := by
  induction n with
  | zero => exact hd
  | succ n ih =>
    rw [deeds_succ]
    exact (course_beat hmute ih (σ n).2).1

/-- **Every deed was allowed** after those before it. -/
theorem lawful (hmute : ∀ h a, law h a → mute a = true) (hd : Course law goal me id [] d) {x : Deed}
    (hx : (d.alone σ n).deed? (σ n).1 = some x) : law (d.deeds σ n) x.action :=
  (course_beat hmute (course hmute hd n) (σ n).2).2 x hx

/-! ### What the deeds tell -/

theorem result_of_attempt {x : Exchange} {r : Except DebugError Response}
    (h : (d.attempt me (.response x)).2 = .got r) :
    x.result? d.link.connection d.now = some r := by
  simp only [attempt] at h
  rw [Exchange.result?]
  generalize x.standing d.link.connection d.now = standing at h ⊢
  cases standing
  · cases h
  · cases h; rfl
  · cases h; rfl

theorem shown_of_attempt {states : List RunState} {deadline : Option Nat} {s : Status}
    (h : (d.attempt me (.await states deadline)).2 = .got (some s)) : s = d.room.state.published := by
  simp only [attempt] at h
  split at h
  · cases h; rfl
  · split at h <;> cases h

variable (d σ) in
/-- Before beat `n` the reader has taken an answer to the request `seq` in which the adapter agrees. -/
def Answered (n : Nat) (seq : Int) : Prop :=
  ∃ k < n, ∃ r, (d.alone σ k).Reads (σ k).1 r ∧ r.requestSeq = seq ∧ r.success = true

/-- **What the call was told the adapter agreed to was answered.** -/
theorem answered_of_agreed (hempty : d.link.connection.answers = []) {seq : Int}
    (h : Script.Agreed (d.deeds σ n) seq) : Answered d σ n seq := by
  obtain ⟨x, r, hx, rfl⟩ := h
  obtain ⟨k, hk, hdeed⟩ := mem_deeds.mp hx
  obtain ⟨me, id, next, -, -, hr⟩ := deed?_eq_some hdeed
  have hresult : x.result? (d.alone σ k).link.connection (d.alone σ k).now = some (.ok r) :=
    result_of_attempt (d := (d.alone σ k).without me) hr
  obtain ⟨hanswer, hsuccess⟩ := answer_of_ok hresult
  rcases read_of_answer hanswer with h | ⟨m, hm, hreads, hseq⟩
  · rw [hempty] at h
    cases h
  · exact ⟨m, Nat.lt_trans hm hk, r, hreads, hseq, hsuccess⟩

theorem leads_alone {i j : Nat} (hij : i ≤ j) : (d.alone σ i).Leads (d.alone σ j) := by
  induction hij with
  | refl => exact .refl
  | @step j _ ih => exact ih.trans (leads_beat (d.alone σ j) (σ j).1)

theorem lockstep_alone (h : Lockstep d.room.state) (n : Nat) :
    Lockstep (d.alone σ n).room.state := by
  obtain ⟨τ, m, hm⟩ := (leads_alone (d := d) (σ := σ) (Nat.zero_le n)).schedule .read
  rw [← hm]
  exact lockstep_after h m

/-- A session does not go back in the order of states. -/
theorem rank_mono (h : Lockstep d.room.state) {i j : Nat} (hij : i ≤ j) :
    (d.alone σ i).room.state.status.state.rank ≤ (d.alone σ j).room.state.status.state.rank := by
  obtain ⟨τ, m, hm⟩ := (leads_alone (d := d) (σ := σ) hij).schedule .read
  rw [← hm]
  exact (session_mono (lockstep_alone h i) (Nat.zero_le m)).2

/-- **A session that has been seen in another state does not come back to the first.** -/
theorem not_launching (h : Lockstep d.room.state) (hl : Left (d.deeds σ n)) :
    (d.alone σ n).room.state.status.state ≠ .launching := by
  obtain ⟨states, deadline, s, hs, hstate⟩ := hl
  obtain ⟨k, hk, hdeed⟩ := mem_deeds.mp hs
  obtain ⟨me, id, next, -, -, hr⟩ := deed?_eq_some hdeed
  have hshown : s = (d.alone σ k).room.state.published :=
    shown_of_attempt (d := (d.alone σ k).without me) hr
  rw [hshown, (lockstep_alone h k).published] at hstate
  have hrank := rank_mono (σ := σ) h (Nat.le_of_lt hk)
  intro hlaunching
  rw [hlaunching] at hrank
  cases hfirst : (d.alone σ k).room.state.status.state with
  | launching => exact hstate hfirst
  | _ => rw [hfirst] at hrank; cases hrank

end Debugger
end DebugHost
