import DebugHost.Proofs.Session.Exchanges
import DebugHost.Proofs.Session.Handshake

/-! # Handshakes wait only for a time, and fail for a cause

What the script of a handshake may do is found by going through it once more, now with an eye on what it
waits for and on what it fails with (`patient_handshake`). It waits for answers to requests of its own, of
which it has not been told, and for no longer than a time (`Patient`). An error that it comes to has a cause
among its deeds (`Cause`), it is that of the only exchange that has failed, and of all requests but the
launch has been told (`Fails`). -/

namespace DebugHost

open DebugHost.Json DebugHost.Session DebugHost.Script

/-! ### What a handshake waits for -/

namespace Script

variable {h h' since since' : List Deed}

/-- Whether a deed is that the call was told of a request. -/
def Deed.tells : Deed → Bool
  | ⟨.response _, _⟩ => true
  | _ => false

theorem mem_of_quiet {x : Deed} (hx : x.tells = false) {y : Exchange}
    {r : Except DebugError Response} (hm : (⟨.response y, r⟩ : Deed) ∈ h ++ [x]) :
    (⟨.response y, r⟩ : Deed) ∈ h := by
  rcases List.mem_append.mp hm with hm | hm
  · exact hm
  · rw [← List.mem_singleton.mp hm] at hx
    cases hx

/-- Deeds in which only of requests that were sent among them was told. -/
def Own (since : List Deed) : Prop :=
  ∀ x r, (⟨.response x, r⟩ : Deed) ∈ since →
    ∃ command v y, (⟨.send command v, .ok y⟩ : Deed) ∈ since ∧ y.seq = x.seq

theorem own_nil : Own [] := fun _ _ h => by cases h

theorem Own.append (h : Own since) (h' : Own since') : Own (since ++ since') := by
  intro x r hm
  rcases List.mem_append.mp hm with hm | hm
  · obtain ⟨command, v, y, hy, hseq⟩ := h x r hm
    exact ⟨command, v, y, List.mem_append_left _ hy, hseq⟩
  · obtain ⟨command, v, y, hy, hseq⟩ := h' x r hm
    exact ⟨command, v, y, List.mem_append_right _ hy, hseq⟩

theorem own_quiet {x : Deed} (hx : x.tells = false) : Own [x] :=
  fun _ _ hm => absurd (mem_of_quiet (h := []) hx hm) List.not_mem_nil

/-- Something has been done after `h`, and only of requests sent meanwhile was told. -/
def Grown (h h' : List Deed) : Prop := ∃ since, h' = h ++ since ∧ Own since

theorem Grown.refl (h : List Deed) : Grown h h := ⟨[], (List.append_nil h).symm, own_nil⟩

theorem Grown.trans {h'' : List Deed} (hg : Grown h h') (hg' : Grown h' h'') : Grown h h'' := by
  obtain ⟨since, rfl, hown⟩ := hg
  obtain ⟨since', rfl, hown'⟩ := hg'
  exact ⟨since ++ since', List.append_assoc .., hown.append hown'⟩

theorem Grown.quiet (hg : Grown h h') {x : Deed} (hx : x.tells = false) : Grown h (h' ++ [x]) :=
  hg.trans ⟨[x], rfl, own_quiet hx⟩

/-- A call waits for the answer to a request that it has sent and not been told of, and its time has just
begun. -/
def Awaits (h : List Deed) (x : Exchange) : Prop :=
  ∃ before command v y since p, h = before ++ ⟨.send command v, .ok y⟩ :: (since ++ [⟨.limit, p⟩]) ∧
    Own since ∧ x = { y with deadline := some p.1 }

/-- What a patient call may do: it waits only for a time, and only for answers to requests of its own. -/
def Patient (h : List Deed) : Action → Prop
  | .response x => Awaits h x
  | .await _ deadline => deadline.isSome = true
  | .outcome _ => False
  | .acquire _ => False
  | a => Debugger.mute a = true

theorem mute_of_patient {a : Action} (ha : Patient h a) : Debugger.mute a = true := by
  cases a with
  | response x => rfl
  | await states deadline => rfl
  | outcome ticket => rfl
  | acquire k => rfl
  | _ => exact ha

theorem bounded_of_patient {a : Action} (ha : Patient h a) : Debugger.Bounded a := by
  cases a with
  | response x =>
    obtain ⟨before, command, v, y, since, p, -, -, rfl⟩ := ha
    rfl
  | await states deadline => exact ha
  | outcome ticket => exact ha
  | acquire k => exact ha
  | _ => exact trivial

/-! ### How it fails -/

/-- The call has been told of no error, and of all requests but the launch that the adapter agrees. -/
structure Clean (h : List Deed) : Prop where
  errorless : ∀ x e, (⟨.response x, .error e⟩ : Deed) ∉ h
  agreed : ∀ q ∈ sent h, q.command = "launch" ∨ Agreed h q.seq

/-- Why a call comes to an error. -/
inductive Cause (h : List Deed) : DebugError → Prop where
  /-- It was told of a request. -/
  | exchange (x : Exchange) (e : DebugError) (told : (⟨.response x, .error e⟩ : Deed) ∈ h) : Cause h e
  /-- A request could not be sent. -/
  | unsent (command : String) (v : Value) (e : DebugError)
    (refused : (⟨.send command v, .error e⟩ : Deed) ∈ h) : Cause h e
  /-- The session had ended. -/
  | ended (s : Status) (seen : (⟨.status, s⟩ : Deed) ∈ h) (state : s.state = .terminated) :
    Cause h .sessionTerminated
  /-- The session ended while its configuration was waited for. -/
  | cut (states : List RunState) (deadline : Option Nat) (s : Status)
    (seen : (⟨.await states deadline, some s⟩ : Deed) ∈ h) (state : s.state = .terminated) :
    Cause h .sessionTerminated
  /-- The adapter agreed to breakpoints in words that cannot be read. -/
  | garbled (v : Value) (y x : Exchange) (r : Response) (e : DebugError)
    (sent : (⟨.send "setBreakpoints" v, .ok y⟩ : Deed) ∈ h)
    (told : (⟨.response x, .ok r⟩ : Deed) ∈ h) (same : x.seq = y.seq)
    (unread : (bodyOf "setBreakpoints" r : Except DebugError SetBreakpointsBody) = .error e) : Cause h e
  /-- The session has not left its first state in time after the launch. -/
  | unready (before rest : List Deed) (v : Value) (y : Exchange) (p : Nat × Duration)
    (states : List RunState) (others : ∀ st, st ≠ .launching → st ∈ states)
    (deeds : h = before ++ ⟨.send "launch" v, .ok y⟩ ::
      ([⟨.limit, p⟩, ⟨.await states (some p.1), none⟩] ++ rest)) : Cause h (.timeout "initialized" p.2)

theorem Cause.append {e : DebugError} (hc : Cause h e) (h' : List Deed) : Cause (h ++ h') e := by
  cases hc with
  | exchange x e ht => exact .exchange x e (List.mem_append_left _ ht)
  | unsent command v e hr => exact .unsent command v e (List.mem_append_left _ hr)
  | ended s hs hstate => exact .ended s (List.mem_append_left _ hs) hstate
  | cut states deadline s hs hstate => exact .cut states deadline s (List.mem_append_left _ hs) hstate
  | garbled v y x r e hs ht hsame hr =>
    exact .garbled v y x r e (List.mem_append_left _ hs) (List.mem_append_left _ ht) hsame hr
  | unready before rest v y p states hstates hdeeds =>
    refine .unready before (rest ++ h') v y p states hstates ?_
    rw [hdeeds]
    simp only [List.append_assoc, List.cons_append]

/-- A call comes to an error: it has a cause, no other was told, and of all requests but the launch was
told. -/
structure Fails (h : List Deed) (e : DebugError) : Prop where
  cause : Cause h e
  single : ∀ x e', (⟨.response x, .error e'⟩ : Deed) ∈ h → e' = e
  answered : ∀ q ∈ sent h, q.command = "launch" ∨ ∃ x r, (⟨.response x, r⟩ : Deed) ∈ h ∧ x.seq = q.seq

theorem Clean.fails (hs : Clean h) {e : DebugError} (hc : Cause h e) : Fails h e := by
  refine ⟨hc, fun x e' hm => absurd hm (hs.errorless x e'), fun q hq => ?_⟩
  refine (hs.agreed q hq).imp_right fun ha => ?_
  obtain ⟨x, r, hx, hseq⟩ := ha
  exact ⟨x, .ok r, hx, hseq⟩

theorem sent_quiet {x : Deed} (hq : x.request? = none) : sent (h ++ [x]) = sent h := by
  rw [sent_append]
  simp only [sent, List.filterMap_cons, hq, List.filterMap_nil, List.append_nil]

theorem Clean.quiet (hs : Clean h) {x : Deed} (hx : x.tells = false) (hq : x.request? = none) :
    Clean (h ++ [x]) := by
  refine ⟨fun y e hm => hs.errorless y e (mem_of_quiet hx hm), fun q hm => ?_⟩
  rw [sent_quiet hq] at hm
  exact (hs.agreed q hm).imp_right fun ha => ha.mono (List.prefix_append _ _)

theorem Fails.quiet {e : DebugError} (hf : Fails h e) {x : Deed} (hx : x.tells = false)
    (hq : x.request? = none) : Fails (h ++ [x]) e := by
  refine ⟨hf.cause.append [x], fun y e' hm => hf.single y e' (mem_of_quiet hx hm), fun q hm => ?_⟩
  rw [sent_quiet hq] at hm
  refine (hf.answered q hm).imp_right fun ha => ?_
  obtain ⟨y, r, hy, hseq⟩ := ha
  exact ⟨y, r, List.mem_append_left _ hy, hseq⟩

/-- A goal that errors reach only as they should. -/
def Ends {α : Type} (more : List Deed → α → Prop) (h : List Deed) : Except DebugError α → Prop
  | .error e => Fails h e
  | .ok a => more h a

theorem Obeys.ends {α β : Type} {s : Script (Except DebugError α)}
    {f : α → Script (Except DebugError β)} {law : List Deed → Action → Prop}
    {more : List Deed → β → Prop}
    (hs : s.Obeys law (Ends fun h' a => (f a).Obeys law (Ends more) h') h) :
    (s.andThen f).Obeys law (Ends more) h := by
  refine Obeys.afterSuccess (hs.mono fun h' r hr => ?_)
  cases r with
  | error e => exact hr
  | ok a => exact hr

end Script

namespace Session

variable {h before since : List Deed} {command : String} {v : Value} {y : Exchange}

/-! ### The calls of a handshake -/

/-- The call waits for the answer to a request of its own. -/
theorem patient_answerOf {goal : List Deed → Except DebugError Response → Prop}
    (hh : h = before ++ ⟨.send command v, .ok y⟩ :: since) (hown : Own since)
    (hgoal : ∀ p r, goal (h ++ [⟨.limit, p⟩] ++ [⟨.response { y with deadline := some p.1 }, r⟩]) r) :
    (answerOf y).Obeys Patient goal h := by
  refine Obeys.bind (obeys_perform rfl fun p _ => ?_)
  have hawaits : Awaits (h ++ [⟨.limit, p⟩]) { y with deadline := some p.1 } := by
    refine ⟨before, command, v, y, since, p, ?_, hown, rfl⟩
    rw [hh]
    simp only [List.append_assoc, List.cons_append]
  exact obeys_perform hawaits fun r _ => hgoal p r

/-- A call that was clean is told of its next request. -/
theorem clean_exchange (hs : Clean h) (command : String) (v : Value) (y : Exchange) (p : Nat × Duration)
    {x : Exchange} (hx : x.seq = y.seq) (r : Except DebugError Response) :
    let h' := h ++ [⟨.send command v, .ok y⟩] ++ [⟨.limit, p⟩] ++ [⟨.response x, r⟩]
    Grown h h' ∧ (∀ e, r = .error e → Fails h' e) ∧ ∀ b, r = .ok b → Clean h' := by
  intro h'
  have hmem : (⟨.response x, r⟩ : Deed) ∈ h' := List.mem_append_right _ (List.mem_singleton_self _)
  have hsent : sent h' = sent h ++ [⟨y.seq, command, v⟩] := by
    simp only [h', sent_append, List.append_assoc]
    rfl
  have holder (z : Exchange) (r' : Except DebugError Response) (hm : (⟨.response z, r'⟩ : Deed) ∈ h') :
      (⟨.response z, r'⟩ : Deed) ∈ h ∨ (⟨.response z, r'⟩ : Deed) = ⟨.response x, r⟩ := by
    rcases List.mem_append.mp hm with hm | hm
    · exact .inl (mem_of_quiet rfl (mem_of_quiet rfl hm))
    · exact .inr (List.mem_singleton.mp hm)
  have hprefix : h <+: h' := by
    simp only [h', List.append_assoc]
    exact List.prefix_append _ _
  refine ⟨⟨[⟨.send command v, .ok y⟩, ⟨.limit, p⟩, ⟨.response x, r⟩], ?_, fun z r' hm => ?_⟩,
    fun e he => ?_, fun b hb => ?_⟩
  · simp only [h', List.append_assoc]
    rfl
  · refine ⟨command, v, y, List.mem_cons_self .., ?_⟩
    simp only [List.mem_cons, List.not_mem_nil, or_false] at hm
    rcases hm with hm | hm | hm
    · cases hm
    · cases hm
    · cases hm
      exact hx.symm
  · subst he
    refine ⟨.exchange x e hmem, fun z e' hm => ?_, fun q hq => ?_⟩
    · rcases holder z _ hm with hm | hm
      · exact absurd hm (hs.errorless z e')
      · cases hm
        rfl
    · rw [hsent] at hq
      rcases List.mem_append.mp hq with hq | hq
      · rcases hs.agreed q hq with hl | ha
        · exact .inl hl
        · obtain ⟨z, b, hz, hseq⟩ := ha.mono hprefix
          exact .inr ⟨z, .ok b, hz, hseq⟩
      · rw [List.mem_singleton.mp hq]
        exact .inr ⟨x, .error e, hmem, hx⟩
  · subst hb
    refine ⟨fun z e hm => ?_, fun q hq => ?_⟩
    · rcases holder z _ hm with hm | hm
      · exact hs.errorless z e hm
      · cases hm
    · rw [hsent] at hq
      rcases List.mem_append.mp hq with hq | hq
      · exact (hs.agreed q hq).imp_right fun ha => ha.mono hprefix
      · rw [List.mem_singleton.mp hq]
        exact .inr ⟨x, b, hmem, hx⟩

/-- A request is sent and its answer waited for. -/
theorem patient_request (hs : Clean h) (command : String) (v : Value) :
    (request command v).Obeys Patient (Ends fun h' r => Clean h' ∧ Grown h h' ∧
      ∃ y x, (⟨.send command v, .ok y⟩ : Deed) ∈ h' ∧ (⟨.response x, .ok r⟩ : Deed) ∈ h' ∧
        x.seq = y.seq) h := by
  refine Obeys.bind (obeys_perform rfl fun sending _ => ?_)
  cases sending with
  | error e =>
    have hclean := hs.quiet (x := ⟨.send command v, .error e⟩) rfl rfl
    have hmem : (⟨.send command v, .error e⟩ : Deed) ∈ h ++ [⟨.send command v, .error e⟩] :=
      List.mem_append_right _ (List.mem_singleton_self _)
    exact hclean.fails (.unsent command v e hmem)
  | ok y =>
    have hsplit : h ++ [⟨.send command v, .ok y⟩] = h ++ ⟨.send command v, .ok y⟩ :: [] := rfl
    refine patient_answerOf hsplit own_nil fun p r => ?_
    have hseq : ({ y with deadline := some p.1 } : Exchange).seq = y.seq := rfl
    obtain ⟨hgrown, herror, hok⟩ := clean_exchange hs command v y p hseq r
    cases r with
    | error e => exact herror e rfl
    | ok b =>
      refine ⟨hok b rfl, hgrown, y, { y with deadline := some p.1 }, ?_, ?_, rfl⟩
      · simp only [List.mem_append, List.mem_singleton, true_or, or_true]
      · exact List.mem_append_right _ (List.mem_singleton_self _)

theorem patient_live (hs : Clean h) :
    live.Obeys Patient (Ends fun h' _ => Clean h' ∧ Grown h h') h := by
  refine Obeys.bind (obeys_perform rfl fun s _ => ?_)
  have hclean := hs.quiet (x := ⟨.status, s⟩) rfl rfl
  show Ends _ _ (if s.state = .terminated then _ else _)
  split
  · next hstate =>
    exact hclean.fails (.ended s (List.mem_append_right _ (List.mem_singleton_self _)) hstate)
  · exact ⟨hclean, (Grown.refl h).quiet rfl⟩

theorem patient_setBreakpoints (hs : Clean h) (path : Path) (lines : Lines) :
    (setBreakpoints path lines).Obeys Patient (Ends fun h' _ => Clean h' ∧ Grown h h') h := by
  refine Obeys.ends ((patient_live hs).mono fun h₁ r hr => ?_)
  cases r with
  | error e => exact hr
  | ok u =>
    obtain ⟨hs₁, hg₁⟩ := hr
    refine Obeys.bind (obeys_perform rfl fun record _ => ?_)
    have hs₂ := hs₁.quiet (x := ⟨.lock, record⟩) rfl rfl
    have hg₂ := hg₁.quiet (x := ⟨.lock, record⟩) rfl
    refine Obeys.bind (Obeys.bind ((patient_request hs₂ _ _).mono fun h₃ r hr => ?_))
    cases r with
    | error e => exact ⟨rfl, fun _ _ => hr.quiet rfl rfl⟩
    | ok r =>
      obtain ⟨hs₃, hg₃, y, x, hsent, htold, hseq⟩ := hr
      cases hbody : Script.bodyOf (α := SetBreakpointsBody) "setBreakpoints" r with
      | error e =>
        simp only [Except.bind, hbody]
        have hfails := hs₃.fails (.garbled _ y x r e hsent htold hseq hbody)
        exact ⟨rfl, fun _ _ => hfails.quiet rfl rfl⟩
      | ok body =>
        simp only [Except.bind, hbody]
        refine ⟨rfl, fun _ _ => ⟨rfl, fun _ _ => ?_⟩⟩
        refine ⟨(hs₃.quiet rfl rfl).quiet rfl rfl, ?_⟩
        exact ((hg₂.trans hg₃).quiet rfl).quiet rfl

theorem patient_setAll (files : List (Path × Lines)) (hs : Clean h) :
    (setAll files).Obeys Patient (Ends fun h' _ => Clean h' ∧ Grown h h') h := by
  induction files generalizing h with
  | nil => exact ⟨hs, .refl h⟩
  | cons f files ih =>
    refine Obeys.ends ((patient_setBreakpoints hs f.1 f.2).mono fun h₁ r hr => ?_)
    cases r with
    | error e => exact hr
    | ok verified =>
      refine (ih hr.1).mono fun h₂ r hr' => ?_
      cases r with
      | error e => exact hr'
      | ok u => exact ⟨hr'.1, hr.2.trans hr'.2⟩

theorem patient_configurationDone (hs : Clean h) :
    configurationDone.Obeys Patient (Ends fun h' _ => Clean h' ∧ Grown h h') h := by
  refine Obeys.ends ((patient_live hs).mono fun h₁ r hr => ?_)
  cases r with
  | error e => exact hr
  | ok u =>
    obtain ⟨hs₁, hg₁⟩ := hr
    refine Obeys.ends ((patient_request hs₁ _ _).mono fun h₂ r hr => ?_)
    cases r with
    | error e => exact hr
    | ok r =>
      obtain ⟨hs₂, hg₂, -⟩ := hr
      exact ⟨rfl, fun taken _ => ⟨hs₂.quiet rfl rfl, (hg₁.trans hg₂).quiet rfl⟩⟩

/-- A launch is owed its answer, of which is told last. -/
theorem fails_launch (hs : Clean h) (p : Nat × Duration) (x : Exchange) (e : DebugError) :
    Fails (h ++ [⟨.limit, p⟩] ++ [⟨.response x, .error e⟩]) e := by
  have hs₁ := hs.quiet (x := ⟨.limit, p⟩) rfl rfl
  have hmem : (⟨.response x, .error e⟩ : Deed) ∈ h ++ [⟨.limit, p⟩] ++ [⟨.response x, .error e⟩] :=
    List.mem_append_right _ (List.mem_singleton_self _)
  refine ⟨.exchange x e hmem, fun z e' hm => ?_, fun q hq => ?_⟩
  · rcases List.mem_append.mp hm with hm | hm
    · exact absurd hm (hs₁.errorless z e')
    · cases List.mem_singleton.mp hm
      rfl
  · rw [sent_quiet (x := ⟨.response x, .error e⟩) rfl] at hq
    refine (hs₁.agreed q hq).imp_right fun ha => ?_
    obtain ⟨z, b, hz, hseq⟩ := ha.mono (List.prefix_append _ [⟨.response x, .error e⟩])
    exact ⟨z, .ok b, hz, hseq⟩

/-- The configuration: breakpoints, the word that they are all, and at last the answer to the launch. -/
theorem patient_configuration (files : List (Path × Lines)) (hs : Clean h)
    (hg : Grown (before ++ [⟨.send "launch" v, .ok y⟩]) h) :
    ((setAll files).andThen fun _ => configurationDone.andThen fun _ => do
        return (← answerOf y).map fun _ => ()).Obeys Patient (Ends fun _ _ => True) h := by
  refine Obeys.ends ((patient_setAll files hs).mono fun h₁ r hr => ?_)
  cases r with
  | error e => exact hr
  | ok u =>
    obtain ⟨hs₁, hg₁⟩ := hr
    refine Obeys.ends ((patient_configurationDone hs₁).mono fun h₂ r hr => ?_)
    cases r with
    | error e => exact hr
    | ok u =>
      obtain ⟨hs₂, hg₂⟩ := hr
      obtain ⟨since, hsince, hown⟩ := hg.trans (hg₁.trans hg₂)
      rw [List.append_assoc] at hsince
      refine Obeys.bind (patient_answerOf hsince hown fun p r => ?_)
      cases r with
      | error e => exact fails_launch hs₂ p _ e
      | ok b => exact trivial

/-- A launch has been sent, to which no answer is waited for yet. -/
theorem clean_launch (hs : Clean h) (v : Value) (y : Exchange) :
    Clean (h ++ [⟨.send "launch" v, .ok y⟩]) := by
  refine ⟨fun x e hm => hs.errorless x e (mem_of_quiet rfl hm), fun q hq => ?_⟩
  rw [sent_append] at hq
  rcases List.mem_append.mp hq with hq | hq
  · exact (hs.agreed q hq).imp_right fun ha => ha.mono (List.prefix_append _ _)
  · rw [List.mem_singleton.mp hq]
    exact .inl rfl

/-- **A handshake is patient, and fails for a cause.** -/
theorem patient_handshake (launch : LaunchArguments) (files : List (Path × Lines)) :
    (handshake launch files).Obeys Patient (Ends fun _ _ => True) [] := by
  have hstart : Clean [] := ⟨fun _ _ hm => (by cases hm), fun q hq => (by cases hq)⟩
  refine Obeys.ends ((patient_request hstart _ _).mono fun h₁ r hr => ?_)
  cases r with
  | error e => exact hr
  | ok r =>
    obtain ⟨hs₁, -, -⟩ := hr
    refine Obeys.ends (obeys_perform rfl fun sending _ => ?_)
    cases sending with
    | error e =>
      have hclean := hs₁.quiet (x := ⟨.send "launch" (written launch), .error e⟩) rfl rfl
      exact hclean.fails (.unsent _ _ e (List.mem_append_right _ (List.mem_singleton_self _)))
    | ok y =>
      have hs₂ := clean_launch hs₁ (written launch) y
      have hg₂ := Grown.refl (h₁ ++ [⟨.send "launch" (written launch), .ok y⟩])
      refine Obeys.bind (obeys_perform rfl fun limit _ => ?_)
      have hs₃ := hs₂.quiet (x := ⟨.limit, limit⟩) rfl rfl
      refine Obeys.bind (obeys_perform rfl fun seen _ => ?_)
      cases seen with
      | none =>
        have hothers : ∀ st, st ≠ .launching →
            st ∈ [RunState.configuring, .running, .paused, .terminated] := fun st hst => by
          cases st with
          | launching => exact absurd rfl hst
          | _ => decide
        refine (hs₃.quiet rfl rfl).fails (.unready h₁ [] (written launch) y limit _ hothers ?_)
        simp only [List.append_assoc]
        rfl
      | some s =>
        show Obeys _ _ (if s.state = .terminated then _ else _) _
        split
        · next hstate =>
          exact (hs₃.quiet rfl rfl).fails
            (.cut _ _ s (List.mem_append_right _ (List.mem_singleton_self _)) hstate)
        · exact patient_configuration files (hs₃.quiet rfl rfl) ((hg₂.quiet rfl).quiet rfl)

end Session

end DebugHost
