import DebugHost.Proofs.Breakpoints
import DebugHost.Proofs.Session.Deeds

/-! # The order of the handshake

The handshake of a new session sends its requests in a fixed order (`Session.plan`): it introduces
itself, launches the program, sets the breakpoints of one file after the other, and tells that it is
done. The adapter may do whatever it likes: agree, refuse, answer with what cannot be read, not answer,
close the connection, and report at any time that it is ready or that the program has stopped.

What the handshake does after each of its deeds is found by going through its script (`obeys_handshake`):
it sends a request only when it is the next in the plan, when the adapter has agreed to all requests
before it but the launch, and, for breakpoints, when the session has left its first state (`Due`); and
it comes to a success only when the adapter has agreed to all of them and the record holds the
breakpoints (`Stage`). Since a call that is alone obeys its law in every run, so it is in every order of
beats (`Debugger.handshakeOrder`). -/

namespace DebugHost

open DebugHost.Json DebugHost.Session DebugHost.Script DebugHost.Traffic

/-- What a request asks, whatever its number. -/
def Request.content (q : Request) : String × Value := (q.command, q.arguments)

namespace Session

/-! ### The plan -/

/-- The requests that come before the breakpoints. -/
def opening (launch : LaunchArguments) : List (String × Value) :=
  [("initialize", written ({} : InitializeArguments)), ("launch", written launch)]

/-- One request for each file, which replaces its breakpoints by all its lines. -/
def replacements (files : List (Path × Lines)) : List (String × Value) :=
  files.map fun f => ("setBreakpoints", replacing f.1 f.2)

/-- The requests of a handshake in their order. -/
def plan (launch : LaunchArguments) (files : List (Path × Lines)) : List (String × Value) :=
  opening launch ++ replacements files ++ [("configurationDone", .null)]

/-- In the plan the request for a file follows those for the files before it. -/
theorem plan_next (launch : LaunchArguments) (before rest : List (Path × Lines)) (f : Path × Lines) :
    opening launch ++ replacements before ++ [("setBreakpoints", replacing f.1 f.2)] <+:
      plan launch (before ++ f :: rest) := by
  refine ⟨replacements rest ++ [("configurationDone", .null)], ?_⟩
  simp only [plan, replacements, List.map_append, List.map_cons, List.append_assoc, List.cons_append,
    List.nil_append]

/-! ### The law -/

/-- A request is due. -/
structure Due (todo : List (String × Value)) (h : List Deed) (command : String) (arguments : Value) :
    Prop where
  next : (sent h).map Request.content ++ [(command, arguments)] <+: todo
  agreed : ∀ q ∈ sent h, q.command = "launch" ∨ Agreed h q.seq
  left : command = "setBreakpoints" → Left h

/-- What a handshake may do: it sends what is due, and gives no orders to the session. -/
def Lawful (todo : List (String × Value)) (h : List Deed) : Action → Prop
  | .send command arguments => Due todo h command arguments
  | a => Debugger.mute a = true

/-- How far a handshake has come: it has sent the requests `done`, the adapter has agreed to them, but
for a launch numbered `owed`, and the breakpoints of the files are in the record. -/
structure Stage (done : List (String × Value)) (owed : Option Int) (files : List (Path × Lines))
    (h : List Deed) : Prop where
  sent : (sent h).map Request.content = done
  agreed : ∀ q ∈ Script.sent h, Agreed h q.seq ∨ q.command = "launch" ∧ owed = some q.seq
  record : (record h).asked = withLines files

variable {todo done : List (String × Value)} {owed : Option Int} {files : List (Path × Lines)}
  {h : List Deed} {command : String} {arguments : Value}

theorem mute_of_lawful {a : Action} (ha : Lawful todo h a) : Debugger.mute a = true := by
  cases a with
  | send command arguments => rfl
  | _ => exact ha

theorem Stage.due (hs : Stage done owed files h) (hnext : done ++ [(command, arguments)] <+: todo)
    (hleft : command = "setBreakpoints" → Left h) : Due todo h command arguments :=
  ⟨hs.sent ▸ hnext, fun q hq => (hs.agreed q hq).symm.imp_left And.left, hleft⟩

/-- A deed by which nothing is sent and the record is not changed. -/
theorem Stage.quiet (hs : Stage done owed files h) {x : Deed} (hq : x.request? = none)
    (hr : x.record? = none) : Stage done owed files (h ++ [x]) := by
  have hsent : Script.sent (h ++ [x]) = Script.sent h := by
    rw [sent_append]
    simp only [Script.sent, List.filterMap_cons, hq, List.filterMap_nil, List.append_nil]
  refine ⟨hsent ▸ hs.sent, fun q hm => ?_, ?_⟩
  · exact (hs.agreed q (hsent ▸ hm)).imp_left fun ha => ha.mono (List.prefix_append _ _)
  · rw [record_snoc, hr]
    exact hs.record

/-- A request has been sent, and the adapter has agreed to it, or it is the launch. -/
theorem Stage.asks (hs : Stage done owed files h) {h' : List Deed} {seq : Int} {owed' : Option Int}
    (hh : h <+: h') (hsent : Script.sent h' = Script.sent h ++ [⟨seq, command, arguments⟩])
    (hrecord : Script.record h' = Script.record h)
    (hnew : Agreed h' seq ∨ command = "launch" ∧ owed' = some seq)
    (howed : owed = none ∨ owed' = owed) : Stage (done ++ [(command, arguments)]) owed' files h' := by
  refine ⟨?_, fun q hq => ?_, by rw [hrecord]; exact hs.record⟩
  · rw [hsent, List.map_append, hs.sent]
    rfl
  · rcases List.mem_append.mp (hsent ▸ hq) with hq | hq
    · rcases hs.agreed q hq with ha | ⟨hc, ho⟩
      · exact .inl (ha.mono hh)
      · rcases howed with hnone | hsame
        · rw [hnone] at ho
          cases ho
        · exact .inr ⟨hc, hsame.trans ho⟩
    · rw [List.mem_singleton.mp hq]
      exact hnew

/-- The record is left to others in another form. -/
theorem Stage.commits (hs : Stage done owed files h) {files' : List (Path × Lines)} {s : BreakpointSet}
    (hasked : s.asked = withLines files') : Stage done owed files' (h ++ [⟨.unlock s, ()⟩]) := by
  have hsent : Script.sent (h ++ [⟨.unlock s, ()⟩]) = Script.sent h :=
    (sent_append _ _).trans (List.append_nil _)
  refine ⟨hsent ▸ hs.sent, fun q hq => ?_, ?_⟩
  · exact (hs.agreed q (hsent ▸ hq)).imp_left fun ha => ha.mono (List.prefix_append _ _)
  · rw [record_snoc]
    exact hasked

/-- The adapter has agreed to the launch. -/
theorem Stage.launched {seq : Int} (hs : Stage done (some seq) files h) {x : Exchange} {r : Response}
    (hx : x.seq = seq) : Stage done none files (h ++ [⟨.response x, .ok r⟩]) := by
  have hq := hs.quiet (x := ⟨.response x, .ok r⟩) rfl rfl
  refine ⟨hq.sent, fun q hm => .inl ?_, hq.record⟩
  rcases hq.agreed q hm with ha | ⟨-, ho⟩
  · exact ha
  · exact ⟨x, r, List.mem_append_right _ (List.mem_singleton_self _), hx.trans (Option.some.inj ho)⟩

/-! ### The calls of a handshake -/

/-- An answer is waited for; the time is looked at before. -/
theorem obeys_answerOf {goal : List Deed → Except DebugError Response → Prop} (x : Exchange)
    (hgoal : ∀ p y r, y.seq = x.seq → goal (h ++ [⟨.limit, p⟩] ++ [⟨.response y, r⟩]) r) :
    (answerOf x).Obeys (Lawful todo) goal h := by
  refine Obeys.bind (obeys_perform rfl fun p _ => ?_)
  exact obeys_perform rfl fun r _ => hgoal p _ r rfl

/-- A request is sent that is due, and a success means that the adapter has agreed. -/
theorem obeys_request (hs : Stage done owed files h) (hnext : done ++ [(command, arguments)] <+: todo)
    (hleft : command = "setBreakpoints" → Left h) :
    (request command arguments).Obeys (Lawful todo)
      (IfOk fun h' _ => h <+: h' ∧ Stage (done ++ [(command, arguments)]) owed files h') h := by
  refine Obeys.bind (obeys_perform (hs.due hnext hleft) fun r _ => ?_)
  cases r with
  | error e => exact trivial
  | ok x =>
    refine obeys_answerOf x fun p y r hy => ?_
    cases r with
    | error e => exact trivial
    | ok b =>
      have hh : h <+: h ++ [⟨.send command arguments, .ok x⟩] ++ [⟨.limit, p⟩] ++
          [⟨.response y, .ok b⟩] := by
        simp only [List.append_assoc]
        exact List.prefix_append _ _
      refine ⟨hh, hs.asks hh ?_ ?_ (.inl ⟨y, b, ?_, hy⟩) (.inr rfl)⟩
      · simp only [sent_append, List.append_assoc]
        rfl
      · simp only [record_snoc]
        rfl
      · exact List.mem_append_right _ (List.mem_singleton_self _)

/-- It is looked whether the session has ended. -/
theorem obeys_live (hs : Stage done owed files h) :
    live.Obeys (Lawful todo) (IfOk fun h' _ => h <+: h' ∧ Stage done owed files h') h := by
  refine Obeys.bind (obeys_perform rfl fun s _ => ?_)
  show IfOk _ _ (if s.state = .terminated then _ else _)
  split
  · exact trivial
  · exact ⟨List.prefix_append _ _, hs.quiet rfl rfl⟩

/-- The breakpoints of a file are set, and are in the record if the adapter has agreed. -/
theorem obeys_setBreakpoints {path : Path} {lines : Lines} (hs : Stage done owed files h)
    (hnext : done ++ [("setBreakpoints", replacing path lines)] <+: todo) (hleft : Left h)
    (hbehind : ∀ f ∈ files, f.1.compare path = .lt) :
    (setBreakpoints path lines).Obeys (Lawful todo)
      (IfOk fun h' _ => h <+: h' ∧
        Stage (done ++ [("setBreakpoints", replacing path lines)]) owed (files ++ [(path, lines)]) h')
      h := by
  have hnext' := written_setBreakpoints path lines
  refine Obeys.andThen ((obeys_live hs).mono fun h₁ r hr => ?_)
  cases r with
  | error e => exact trivial
  | ok u =>
    obtain ⟨hh₁, hs₁⟩ := hr
    refine Obeys.bind (obeys_perform rfl fun before hbefore => ?_)
    have hs₂ := hs₁.quiet (x := ⟨.lock, before⟩) rfl rfl
    have hrequest := obeys_request hs₂ (hnext' ▸ hnext)
      fun _ => (hleft.mono hh₁).mono (List.prefix_append _ _)
    refine Obeys.bind (Obeys.bind (hrequest.mono fun h₃ r hr => ?_))
    cases r with
    | error e => exact ⟨rfl, fun _ _ => trivial⟩
    | ok r =>
      obtain ⟨hh₃, hs₃⟩ := hr
      cases hbody : Script.bodyOf (α := SetBreakpointsBody) "setBreakpoints" r with
      | error e =>
        simp only [Except.bind, hbody]
        exact ⟨rfl, fun _ _ => trivial⟩
      | ok body =>
        simp only [Except.bind, hbody]
        refine ⟨rfl, fun _ _ => ⟨rfl, fun _ _ => ?_⟩⟩
        have hbefore : before = Script.record h₁ := hbefore
        have hcommit : (before.commit path lines body.breakpoints).2.asked =
            withLines (files ++ [(path, lines)]) := by
          have hasked : before.asked = withLines files := hbefore ▸ hs₁.record
          rw [BreakpointSet.asked_commit (fun f hf => hbehind f ?_), hasked]
          · exact (List.filter_append _ _).symm
          · exact (List.mem_filter.mp (hasked ▸ hf)).1
        have hs₄ := hs₃.quiet (x := ⟨.log .debug "breakpoints installed" [("path", .shown path.text),
          ("verified", .int (verifiedLines lines body.breakpoints).toList.length)], ()⟩) rfl rfl
        have hs₅ := hs₄.commits hcommit
        rw [hnext'] at hs₅
        refine ⟨?_, hs₅⟩
        exact ((hh₁.trans (List.prefix_append _ _)).trans hh₃).trans
          ((List.prefix_append _ _).trans (List.prefix_append _ _))

/-- The breakpoints of one file after the other are set. -/
theorem obeys_setAll {launch : LaunchArguments} (before rest : List (Path × Lines))
    (hs : Stage (opening launch ++ replacements before) owed before h) (hleft : Left h)
    (horder : Path.InOrder (before ++ rest)) :
    (setAll rest).Obeys (Lawful (plan launch (before ++ rest)))
      (IfOk fun h' _ => h <+: h' ∧
        Stage (opening launch ++ replacements (before ++ rest)) owed (before ++ rest) h') h := by
  induction rest generalizing before h with
  | nil =>
    rw [List.append_nil]
    exact ⟨List.prefix_rfl, hs⟩
  | cons f rest ih =>
    obtain ⟨path, lines⟩ := f
    have hall : before ++ (path, lines) :: rest = (before ++ [(path, lines)]) ++ rest := by
      rw [List.append_assoc, List.singleton_append]
    have hdone : opening launch ++ replacements before ++ [("setBreakpoints", replacing path lines)] =
        opening launch ++ replacements (before ++ [(path, lines)]) := by
      simp only [replacements, List.map_append, List.append_assoc, List.map_cons, List.map_nil]
    have hbehind : ∀ f ∈ before, f.1.compare path = .lt := fun f hf =>
      (List.pairwise_append.mp horder).2.2 f hf (path, lines) (List.mem_cons_self ..)
    have hnext := plan_next launch before rest (path, lines)
    have hset := obeys_setBreakpoints hs hnext hleft hbehind
    refine Obeys.andThen (hset.mono fun h' r hr => ?_)
    cases r with
    | error e => exact trivial
    | ok verified =>
      obtain ⟨hh, hs'⟩ := hr
      rw [hdone] at hs'
      rw [hall] at horder ⊢
      refine (ih _ hs' (hleft.mono hh) horder).mono fun h'' r hr => ?_
      cases r with
      | error e => exact trivial
      | ok u => exact ⟨hh.trans hr.1, hr.2⟩

/-- The adapter is told that the configuration is complete. -/
theorem obeys_configurationDone (hs : Stage done owed files h)
    (hnext : done ++ [("configurationDone", .null)] <+: todo) :
    configurationDone.Obeys (Lawful todo)
      (IfOk fun h' _ => h <+: h' ∧ Stage (done ++ [("configurationDone", .null)]) owed files h') h := by
  refine Obeys.andThen ((obeys_live hs).mono fun h₁ r hr => ?_)
  cases r with
  | error e => exact trivial
  | ok u =>
    obtain ⟨hh₁, hs₁⟩ := hr
    have hrequest := obeys_request hs₁ hnext fun hc => absurd hc (by decide)
    refine Obeys.andThen (hrequest.mono fun h₂ r hr => ?_)
    cases r with
    | error e => exact trivial
    | ok r =>
      obtain ⟨hh₂, hs₂⟩ := hr
      refine ⟨rfl, fun taken _ => ⟨?_, hs₂.quiet rfl rfl⟩⟩
      exact (hh₁.trans hh₂).trans (List.prefix_append _ _)

/-- The configuration: breakpoints, the word that they are all, and at last the answer to the launch. -/
theorem obeys_configuration {launch : LaunchArguments} (horder : Path.InOrder files)
    {launching : Exchange} (hs : Stage (opening launch) (some launching.seq) [] h) (hleft : Left h) :
    ((setAll files).andThen fun _ => configurationDone.andThen fun _ => do
        return (← answerOf launching).map fun _ => ()).Obeys (Lawful (plan launch files))
      (IfOk fun h' _ => Stage (plan launch files) none files h') h := by
  have hnone : Stage (opening launch ++ replacements []) (some launching.seq) [] h := by
    rw [replacements, List.map_nil, List.append_nil]
    exact hs
  refine Obeys.andThen ((obeys_setAll [] files hnone hleft horder).mono fun h₁ r hr => ?_)
  cases r with
  | error e => exact trivial
  | ok u =>
    refine Obeys.andThen ((obeys_configurationDone hr.2 List.prefix_rfl).mono fun h₂ r hr => ?_)
    cases r with
    | error e => exact trivial
    | ok u =>
      refine Obeys.bind (obeys_answerOf launching fun p y r hy => ?_)
      cases r with
      | error e => exact trivial
      | ok r => exact (hr.2.quiet rfl rfl).launched hy

/-- **A handshake keeps to its plan**, and succeeds only when it is carried out. -/
theorem obeys_handshake (launch : LaunchArguments) {files : List (Path × Lines)}
    (horder : Path.InOrder files) :
    (handshake launch files).Obeys (Lawful (plan launch files))
      (IfOk fun h _ => Stage (plan launch files) none files h) [] := by
  have hstart : Stage [] none [] [] := ⟨rfl, fun q hq => (by cases hq), rfl⟩
  have hintroduction : [] ++ [("initialize", written ({} : InitializeArguments))] <+: plan launch files :=
    List.prefix_append _ _
  have hintroduced := obeys_request hstart hintroduction fun hc => absurd hc (by decide)
  refine Obeys.andThen (hintroduced.mono fun h₁ r hr => ?_)
  cases r with
  | error e => exact trivial
  | ok r =>
    obtain ⟨-, hs₁⟩ := hr
    have hlaunch : ([] ++ [("initialize", written ({} : InitializeArguments))]) ++
        [("launch", written launch)] <+: plan launch files := List.prefix_append _ _
    have hdue := hs₁.due hlaunch fun hc => absurd hc (by decide)
    refine Obeys.andThen (obeys_perform hdue fun sending _ => ?_)
    cases sending with
    | error e => exact trivial
    | ok launching =>
      have hs₂ : Stage (opening launch) (some launching.seq) []
          (h₁ ++ [⟨.send "launch" (written launch), .ok launching⟩]) := by
        refine hs₁.asks (List.prefix_append _ _) ?_ ?_ (.inr ⟨rfl, rfl⟩) (.inl rfl)
        · exact sent_append _ _
        · exact record_snoc _ _
      refine Obeys.bind (obeys_perform rfl fun limit _ => ?_)
      obtain ⟨deadline, timeout⟩ := limit
      have hs₃ := hs₂.quiet (x := ⟨.limit, (deadline, timeout)⟩) rfl rfl
      refine Obeys.bind (obeys_perform rfl fun seen hseen => ?_)
      cases seen with
      | none => exact trivial
      | some s =>
        have hleft := left_of_await hseen (by decide)
        show Obeys _ _ (if s.state = .terminated then _ else _) _
        split
        · exact trivial
        · exact obeys_configuration horder (hs₃.quiet rfl rfl) hleft

end Session

namespace Debugger

/-! ### In every order of beats -/

/-- A session on a new connection, whose only user begins a handshake. -/
def handshaking (timeout : Duration) (id : SessionId) (attached : Bool) (launch : LaunchArguments)
    (sources : Sources) : Resumer :=
  ((connect timeout : Resumer).startSession id attached).call 0 (handshake launch sources.files)

/-- The handshake is task 3, behind writer, reader and session. -/
theorem handshaking_eq (timeout : Duration) (id : SessionId) (attached : Bool)
    (launch : LaunchArguments) (sources : Sources) :
    ∃ schedule log, handshaking timeout id attached launch sources =
      { link := .start timeout
        room := .open_ id attached
        tasks := [(0, .writer), (1, .reader), (2, .session),
          (3, .call 0 (handshake launch sources.files))]
        nextTask := 4
        schedule := schedule
        log := log } := by
  rw [handshaking, startSession_connect]
  exact ⟨_, _, rfl⟩

/-- Nothing has been done before, so that the handshake keeps to any law that its script obeys. -/
theorem course_of_obeys {law : List Deed → Action → Prop}
    {goal : List Deed → Except DebugError Unit → Prop} (timeout : Duration) (id : SessionId)
    (attached : Bool) {launch : LaunchArguments} {sources : Sources}
    (hobeys : (handshake launch sources.files).Obeys law goal []) :
    Course law goal 3 0 [] (handshaking timeout id attached launch sources) := by
  obtain ⟨schedule, log, hd⟩ := handshaking_eq timeout id attached launch sources
  rw [hd]
  refine ⟨.goesOn _ rfl (fun p hp hne => ?_) hobeys rfl, rfl, ⟨List.prefix_rfl, fun _ => rfl⟩,
    fun c hc => by cases hc⟩
  simp only [List.mem_cons, List.not_mem_nil, or_false] at hp
  rcases hp with rfl | rfl | rfl | rfl
  · rfl
  · rfl
  · rfl
  · exact absurd rfl hne

theorem course_handshaking (timeout : Duration) (id : SessionId) (attached : Bool)
    (launch : LaunchArguments) (sources : Sources) :
    Course (Lawful (plan launch sources.files))
      (IfOk fun h _ => Stage (plan launch sources.files) none sources.files h) 3 0 []
      (handshaking timeout id attached launch sources) :=
  course_of_obeys timeout id attached (obeys_handshake launch sources.inOrder)

variable {d : Resumer} {σ : Nat → LoneBeat} {n : Nat}

/-- What is sent is due. -/
theorem due_of_request {todo : List (String × Value)}
    {goal : List Deed → Except DebugError Unit → Prop} {me id : Nat}
    (hd : Course (Lawful todo) goal me id [] d) {q : Request} (h : d.request? σ n = some q) :
    Due todo (d.deeds σ n) q.command q.arguments := by
  obtain ⟨x, hx, hq⟩ := Option.bind_eq_some_iff.mp h
  have hlawful := lawful (fun _ _ => mute_of_lawful) hd hx
  unfold Deed.request? at hq
  split at hq
  · cases hq
    exact hlawful
  · cases hq

/-- What has been sent is the beginning of the plan, as the last of it was due. -/
theorem prefix_plan {todo : List (String × Value)} {goal : List Deed → Except DebugError Unit → Prop}
    {me id : Nat} (hd : Course (Lawful todo) goal me id [] d) (n : Nat) :
    (sent (d.deeds σ n)).map Request.content <+: todo := by
  induction n with
  | zero => exact List.nil_prefix
  | succ n ih =>
    rw [sent_succ]
    cases hq : d.request? σ n with
    | none => rw [Option.toList_none, List.append_nil]; exact ih
    | some q => rw [Option.toList_some, List.map_append]; exact (due_of_request hd hq).next

/-- What is sent before the launch is the introduction. -/
theorem initialize_of_launch {h : List Deed} {launch : LaunchArguments} {files : List (Path × Lines)}
    {arguments : Value} (hdue : Due (plan launch files) h "launch" arguments) :
    ∃ p ∈ sent h, p.command = "initialize" := by
  have hnext := hdue.next
  cases hs : sent h with
  | nil =>
    rw [hs] at hnext
    have hfirst : "launch" = "initialize" := congrArg Prod.fst (List.cons_prefix_cons.mp hnext).1
    exact absurd hfirst (by decide)
  | cons p rest =>
    rw [hs] at hnext
    have hfirst := (List.cons_prefix_cons.mp hnext).1
    exact ⟨p, List.mem_cons_self .., congrArg Prod.fst hfirst⟩

/-- A handshake that is over with a success has carried out its plan. -/
theorem stage_of_success {law : List Deed → Action → Prop} {goal : List Deed → Prop} {me id : Nat}
    {h : List Deed} (hd : Course law (IfOk fun h _ => goal h) me id h d)
    (hok : (id, .ok ()) ∈ d.finished) : goal h := by
  cases hd.stands with
  | goesOn s _ _ _ hf =>
    rw [hf] at hok
    cases hok
  | returned r hr _ hf =>
    rw [hf] at hok
    cases List.mem_singleton.mp hok
    exact hr

/-- **The order of a handshake** under any behaviour of the adapter, in any order of beats. -/
structure HandshakeOrder (launch : LaunchArguments) (sources : Sources) (d : Resumer)
    (σ : Nat → LoneBeat) : Prop where
  /-- The requests on the wire are those that the handshake has sent, in their order. -/
  wire : ∀ n, requests (d.alone σ n).link.written <+: sent (d.deeds σ n)
  /-- They are the beginning of the plan. -/
  planned : ∀ n, (sent (d.deeds σ n)).map Request.content <+: plan launch sources.files
  /-- When a request is sent, the adapter has agreed to all before it but the launch. -/
  agreed : ∀ n q, d.request? σ n = some q →
    ∀ p ∈ sent (d.deeds σ n), p.command = "launch" ∨ Answered d σ n p.seq
  /-- When the launch is sent, the adapter has agreed to the introduction. -/
  introduced : ∀ n q, d.request? σ n = some q → q.command = "launch" →
    ∃ p ∈ sent (d.deeds σ n), p.command = "initialize" ∧ Answered d σ n p.seq
  /-- When breakpoints are set, the session has left its first state. -/
  left : ∀ n q, d.request? σ n = some q → q.command = "setBreakpoints" →
    (d.alone σ n).room.state.status.state ≠ .launching ∧
    (d.alone σ n).room.state.published.state ≠ .launching
  /-- After a success all requests have been sent, the adapter has agreed to all of them, and the record
  holds the given files and lines. -/
  complete : ∀ n, (0, .ok ()) ∈ (d.alone σ n).finished →
    (sent (d.deeds σ n)).map Request.content = plan launch sources.files ∧
    (∀ q ∈ sent (d.deeds σ n), Answered d σ n q.seq) ∧
    (d.alone σ n).room.breakpoints.asked = withLines sources.files

/-- **The handshake of a session that nobody else uses keeps to its order.** -/
theorem handshakeOrder (timeout : Duration) (id : SessionId) (attached : Bool)
    (launch : LaunchArguments) (sources : Sources) (σ : Nat → LoneBeat) :
    HandshakeOrder launch sources (handshaking timeout id attached launch sources) σ := by
  have hstart := course_handshaking timeout id attached launch sources
  obtain ⟨schedule, log, hd⟩ := handshaking_eq timeout id attached launch sources
  have hempty : (handshaking timeout id attached launch sources).link.connection.answers = [] := by
    rw [hd]
    rfl
  have hkept : Lockstep (handshaking timeout id attached launch sources).room.state := by
    rw [hd]
    exact lockstep_fresh ({ link := .start timeout } : Resumer) id attached
  clear hd
  generalize handshaking timeout id attached launch sources = d at *
  have hcourse := course (σ := σ) (fun _ _ => mute_of_lawful) hstart
  have agreed : ∀ n q, d.request? σ n = some q →
      ∀ p ∈ sent (d.deeds σ n), p.command = "launch" ∨ Answered d σ n p.seq :=
    fun n q hq p hp =>
      ((due_of_request hstart hq).agreed p hp).imp_right (answered_of_agreed hempty)
  refine ⟨fun n => (hcourse n).conveys.written, prefix_plan hstart, agreed, fun n q hq hlaunch => ?_,
    fun n q hq hset => ?_, fun n hok => ?_⟩
  · obtain ⟨p, hp, hintroduction⟩ := initialize_of_launch (hlaunch ▸ due_of_request hstart hq)
    refine ⟨p, hp, hintroduction, (agreed n q hq p hp).resolve_left fun hl => ?_⟩
    rw [hintroduction] at hl
    exact absurd hl (by decide)
  · have hleft := not_launching hkept ((due_of_request hstart hq).left hset)
    refine ⟨hleft, ?_⟩
    rw [(lockstep_alone hkept n).published]
    exact hleft
  · have hstage := stage_of_success (hcourse n) hok
    refine ⟨hstage.sent, fun q hq => ?_, ?_⟩
    · rcases hstage.agreed q hq with ha | ⟨-, hnone⟩
      · exact answered_of_agreed hempty ha
      · cases hnone
    · rw [(hcourse n).record]
      exact hstage.record

/-! ### In every run -/

/-- The tasks of a handshake have numbers that come before the next, so that whatever the debugger does
from there on is lone beats (`proceeds_settle`, `proceeds_advance`). -/
theorem counted_handshaking (timeout : Duration) (id : SessionId) (attached : Bool)
    (launch : LaunchArguments) (sources : Sources) :
    (handshaking timeout id attached launch sources).Counted := by
  obtain ⟨schedule, log, hd⟩ := handshaking_eq timeout id attached launch sources
  rw [hd]
  intro p hp
  simp only [List.mem_cons, List.not_mem_nil, or_false] at hp
  rcases hp with rfl | rfl | rfl | rfl <;> (dsimp only; decide)

/-- **In every run** what is on the wire is the beginning of the plan, and after a success the record
holds the given files and lines. -/
theorem handshake_run {timeout : Duration} {id : SessionId} {attached : Bool}
    {launch : LaunchArguments} {sources : Sources}
    (h : Proceeds (handshaking timeout id attached launch sources) d) :
    (requests d.link.written).map Request.content <+: plan launch sources.files ∧
    ((0, .ok ()) ∈ d.finished → d.room.breakpoints.asked = withLines sources.files) := by
  have hstart := course_handshaking timeout id attached launch sources
  obtain ⟨σ, n, rfl⟩ := h.alone
  have hcourse := course (σ := σ) (fun _ _ => mute_of_lawful) hstart n
  refine ⟨?_, fun hok => ?_⟩
  · exact (hcourse.conveys.written.map Request.content).trans (prefix_plan hstart n)
  · rw [hcourse.record]
    exact (stage_of_success hcourse hok).record

/-- The adapter sends a message, and the debugger goes on until it waits. -/
def hear (d : Resumer) (m : Message) : Resumer := (d.arrive (Frame.encode m)).settle

theorem hear_eq_spelled : hear = fun d m => (d.arrive (Frame.spelled m)).settle := by
  funext d m
  rw [hear, Frame.encode_eq_spelled]

/-- What the debugger comes to that hears one message after the other. -/
theorem proceeds_hear (h : d.Counted) (ms : List Message) : Proceeds d (ms.foldl hear d.settle) := by
  have hfirst := proceeds_settle h
  generalize d.settle = e at hfirst ⊢
  induction ms generalizing e with
  | nil => exact hfirst
  | cons m ms ih =>
    have harrive : Proceeds d (e.arrive (Frame.encode m)) :=
      hfirst.trans (proceeds_foreign e (m := .arrive (Frame.encode m)) rfl rfl)
    exact ih _ (harrive.trans (proceeds_settle (harrive.counted h)))

/-- **Whatever the adapter says, message by message**, the requests on the wire are the beginning of the
plan, and after a success the record holds the given files and lines. -/
theorem handshake_heard (timeout : Duration) (id : SessionId) (attached : Bool)
    (launch : LaunchArguments) (sources : Sources) (ms : List Message) :
    let d := ms.foldl hear (handshaking timeout id attached launch sources).settle
    (requests d.link.written).map Request.content <+: plan launch sources.files ∧
    ((0, .ok ()) ∈ d.finished → d.room.breakpoints.asked = withLines sources.files) :=
  handshake_run (proceeds_hear (counted_handshaking timeout id attached launch sources) ms)

/-- A script with two breakpoints is launched. -/
def twoLines : Resumer :=
  handshaking ⟨5000⟩ ⟨1⟩ true
    ⟨"script", "python", "launch", "/work/main.py", "/work", "internalConsole", true, false⟩
    ((Sources.none.withBreakpoint ⟨"/work/main.py"⟩ 7).withBreakpoint ⟨"/work/main.py"⟩ 3)

/-- The adapter is ready before it answers the launch, to which it agrees last. -/
def configured : Resumer :=
  let agree (seq : Int) (command : String) : Message := .response ⟨9, seq, true, command, none, none⟩
  [agree 1 "initialize", .event ⟨9, "initialized", none⟩, agree 3 "setBreakpoints",
    agree 4 "configurationDone", agree 2 "launch"].foldl hear twoLines.settle

set_option maxRecDepth 20000 in
example : configured.finished.map (fun p => (p.1, p.2.toOption)) = [(0, some ())] ∧
    configured.room.breakpoints.asked = [(⟨"/work/main.py"⟩, ⟨[3, 7]⟩)] ∧
    (requests configured.link.written).map Request.command =
      ["initialize", "launch", "setBreakpoints", "configurationDone"] := by
  rw [configured, hear_eq_spelled]
  decide +kernel

end Debugger
end DebugHost
