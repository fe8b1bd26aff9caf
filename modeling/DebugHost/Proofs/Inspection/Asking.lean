import DebugHost.Proofs.Session.Quiet
import DebugHost.Report.Session

/-! # Looking at the paused program, step by step

Who looks at the paused program takes a slot, finds the view there or puts the question to the adapter,
brings the answer to the slot, and has the view checked. One such look after the other is the protocol
`Inspection.asking`, to which every script adheres that users can call (`adheres_inspect`,
`Within.asking`). The protocol says what is asked and of what the answer is a reading; what slots hold,
and for whom, it leaves open. -/

namespace DebugHost

open DebugHost.Session DebugHost.Script DebugHost.Json

namespace Inspection

/-! ### Questions and answers on the wire -/

/-- The arguments of the request for a question. -/
def Key.arguments : Key → Value
  | .stack thread => written ({ threadId := thread } : StackTraceArguments)
  | .scopes frame => written (ScopesArguments.mk frame)
  | .values reference => written (VariablesArguments.mk reference)

/-- What a response says to a question. -/
def Key.reading : Key → Response → Except DebugError Answer
  | .stack _, r => (Script.bodyOf "stackTrace" r).map fun b : StackTraceBody => .frames b.stackFrames
  | .scopes _, r => (Script.bodyOf "scopes" r).map fun b : ScopesBody => .scopes b.scopes
  | .values _, r => (Script.bodyOf "variables" r).map fun b : VariablesBody => .values b.values

/-- Where the number stands in the request for a question. -/
def Key.field : Key → String
  | .stack _ => "threadId"
  | .scopes _ => "frameId"
  | .values _ => "variablesReference"

theorem Key.member_arguments (k : Key) : k.arguments.member k.field = .int k.number := by
  cases k <;> rfl

/-- The request tells the question: no two questions are put with the same words. -/
theorem Key.eq_of_request {k k' : Key} (hc : k.command = k'.command)
    (ha : k.arguments = k'.arguments) : k = k' := by
  have hfield : k.field = k'.field := by
    cases k <;> cases k' <;> first | rfl | simp [command] at hc
  have hnumber : k.number = k'.number := by
    have h := k.member_arguments
    rw [ha, hfield, k'.member_arguments] at h
    exact (Value.int.inj h).symm
  cases k <;> cases k' <;> first | exact congrArg _ hnumber | simp [command] at hc

/-- The commands with which questions are put. -/
def inspecting (command : String) : Bool := command ∈ ["stackTrace", "scopes", "variables"]

theorem Key.inspecting_command (k : Key) : inspecting k.command = true := by
  cases k <;> simp [inspecting, command]

/-! ### Looks -/

/-- A query with the slot that was taken for it. -/
structure Look where
  query : Query
  ticket : Ticket

/-- The generation and the question of a slot. -/
abbrev Subject := Generation × Key

def Look.subject (l : Look) : Subject := (l.ticket.generation, l.ticket.key)

/-- A question that was put, and what was told of it. -/
structure Fetch where
  look : Look
  /-- The number of the request, unless the connection did not take it. -/
  request : Option Int
  told : Except DebugError Response

/-- What has come of the question. -/
def Fetch.outcome (f : Fetch) : Except DebugError Answer := f.told.bind f.look.ticket.key.reading

/-- A look at the paused program that is over. -/
inductive Visit where
  /-- There was no slot to take. -/
  | refused (q : Query) (e : DebugError)
  /-- The adapter was asked in vain. -/
  | failed (f : Fetch) (e : DebugError)
  /-- The view was there, and was checked. -/
  | checked (l : Look) (v : View) (r : Except DebugError View)

namespace Visit

def query : Visit → Query
  | .refused q _ => q
  | .failed f _ => f.look.query
  | .checked l .. => l.query

/-- What is told of a look. -/
def result : Visit → Except DebugError View
  | .refused _ e => .error e
  | .failed _ e => .error e
  | .checked _ _ r => r

end Visit

/-- How far a task is with a look. -/
inductive Stand where
  /-- It is not looking. -/
  | apart
  /-- It has taken a slot. -/
  | joined (l : Look)
  /-- It is to ask the adapter. -/
  | asks (l : Look)
  /-- It has sent the request `seq`. -/
  | sent (l : Look) (seq : Int)
  /-- It knows what has become of its question. -/
  | told (f : Fetch)
  /-- It has the view, which is to be checked. -/
  | checks (l : Look) (v : View)

namespace Stand

/-- The look that ends with a deed. -/
def ended? : Stand → Deed → Option Visit
  | .apart, ⟨.join q, .error e⟩ => some (.refused q e)
  | .told f, ⟨.deliver .., .error e⟩ => some (.failed f e)
  | .checks l v, ⟨.confirm .., r⟩ => some (.checked l v r)
  | _, _ => none

/-- Where a deed leads. -/
def next : Stand → Deed → Stand
  | .apart, ⟨.join q, .ok k⟩ => .joined ⟨q, k⟩
  | .joined l, ⟨.acquire _, none⟩ => .asks l
  | .joined l, ⟨.acquire _, some v⟩ => .checks l v
  | .asks l, ⟨.send .., .ok x⟩ => .sent l x.seq
  | .asks l, ⟨.send .., .error e⟩ => .told ⟨l, none, .error e⟩
  | .sent l seq, ⟨.response _, r⟩ => .told ⟨l, some seq, r⟩
  | .told f, ⟨.deliver .., .ok v⟩ => .checks f.look v
  | .told _, ⟨.deliver .., .error _⟩ => .apart
  | .checks .., ⟨.confirm .., _⟩ => .apart
  | s, _ => s

/-- What a task may attempt: nothing but who has taken a slot asks, puts just its question, waits for the
answer and brings to the slot what it is told. -/
def may : Stand → Action → Prop
  | .apart, .acquire _ => False
  | .apart, .deliver .. => False
  | .apart, .confirm .. => False
  | .apart, .send command _ => inspecting command = false
  | .apart, _ => True
  | .joined l, .acquire k => k = l.ticket
  | .asks l, .send command v => command = l.ticket.key.command ∧ v = l.ticket.key.arguments
  | .sent .., .limit => True
  | .sent _ seq, .response x => x.seq = seq
  | .told f, .deliver k r => k = f.look.ticket ∧ r = f.outcome
  | .checks l v, .confirm g w => g = l.ticket.generation ∧ w = v
  | _, _ => False

end Stand

/-- The looks of a task that are over, and how far it is with the next. -/
structure Place where
  past : List Visit
  stand : Stand

/-- One look after the other. -/
def asking : Protocol Place where
  first := ⟨[], .apart⟩
  may p := p.stand.may
  next p x := ⟨p.past ++ (p.stand.ended? x).toList, p.stand.next x⟩
  rests p := p.stand = .apart

/-! ### Where deeds lead -/

variable {past : List Visit}

/-- Whether an action is of no matter to the tree. -/
def Idle : Action → Prop
  | .join _ => False
  | .acquire _ => False
  | .deliver .. => False
  | .confirm .. => False
  | .send command _ => inspecting command = false
  | _ => True

theorem idle_of_quiet {a : Action} (h : Quiet a) : Idle a := by
  cases a with
  | join q => exact h
  | acquire k => exact h
  | deliver k r => exact h
  | confirm g v => exact h
  | send command v =>
    simp only [Quiet, List.mem_cons, not_or] at h
    simp [Idle, inspecting, h]
  | _ => exact trivial

theorem next_idle {a : Action} (ha : Idle a) (r : a.Reply) :
    asking.next ⟨past, .apart⟩ ⟨a, r⟩ = ⟨past, .apart⟩ := by
  cases a with
  | join q => exact ha.elim
  | acquire k => exact ha.elim
  | deliver k r => exact ha.elim
  | confirm g v => exact ha.elim
  | _ => simp only [asking, Stand.ended?, Stand.next, Option.toList_none, List.append_nil]

theorem may_idle {a : Action} (ha : Idle a) : asking.may ⟨past, .apart⟩ a := by
  cases a with
  | acquire k => exact ha.elim
  | deliver k r => exact ha.elim
  | confirm g v => exact ha.elim
  | send command v => exact ha
  | _ => exact trivial

theorem next_refused (q : Query) (e : DebugError) :
    asking.next ⟨past, .apart⟩ ⟨.join q, .error e⟩ = ⟨past ++ [.refused q e], .apart⟩ := rfl

theorem next_joined (q : Query) (k : Ticket) :
    asking.next ⟨past, .apart⟩ ⟨.join q, .ok k⟩ = ⟨past, .joined ⟨q, k⟩⟩ := by
  simp only [asking, Stand.ended?, Stand.next, Option.toList_none, List.append_nil]

theorem next_mine (l : Look) (k : Ticket) :
    asking.next ⟨past, .joined l⟩ ⟨.acquire k, none⟩ = ⟨past, .asks l⟩ := by
  simp only [asking, Stand.ended?, Stand.next, Option.toList_none, List.append_nil]

theorem next_known (l : Look) (k : Ticket) (v : View) :
    asking.next ⟨past, .joined l⟩ ⟨.acquire k, some v⟩ = ⟨past, .checks l v⟩ := by
  simp only [asking, Stand.ended?, Stand.next, Option.toList_none, List.append_nil]

theorem next_sent (l : Look) (command : String) (v : Value) (x : Exchange) :
    asking.next ⟨past, .asks l⟩ ⟨.send command v, .ok x⟩ = ⟨past, .sent l x.seq⟩ := by
  simp only [asking, Stand.ended?, Stand.next, Option.toList_none, List.append_nil]

theorem next_unsent (l : Look) (command : String) (v : Value) (e : DebugError) :
    asking.next ⟨past, .asks l⟩ ⟨.send command v, .error e⟩ =
      ⟨past, .told ⟨l, none, .error e⟩⟩ := by
  simp only [asking, Stand.ended?, Stand.next, Option.toList_none, List.append_nil]

theorem next_limit (l : Look) (seq : Int) (t : Nat × Duration) :
    asking.next ⟨past, .sent l seq⟩ ⟨.limit, t⟩ = ⟨past, .sent l seq⟩ := by
  simp only [asking, Stand.ended?, Stand.next, Option.toList_none, List.append_nil]

theorem next_response (l : Look) (seq : Int) (x : Exchange) (r : Except DebugError Response) :
    asking.next ⟨past, .sent l seq⟩ ⟨.response x, r⟩ = ⟨past, .told ⟨l, some seq, r⟩⟩ := by
  simp only [asking, Stand.ended?, Stand.next, Option.toList_none, List.append_nil]

theorem next_filled (f : Fetch) (k : Ticket) (r : Except DebugError Answer) (v : View) :
    asking.next ⟨past, .told f⟩ ⟨.deliver k r, .ok v⟩ = ⟨past, .checks f.look v⟩ := by
  simp only [asking, Stand.ended?, Stand.next, Option.toList_none, List.append_nil]

theorem next_failed (f : Fetch) (k : Ticket) (r : Except DebugError Answer) (e : DebugError) :
    asking.next ⟨past, .told f⟩ ⟨.deliver k r, .error e⟩ = ⟨past ++ [.failed f e], .apart⟩ := rfl

theorem next_checked (l : Look) (v w : View) (g : Generation) (r : Except DebugError View) :
    asking.next ⟨past, .checks l v⟩ ⟨.confirm g w, r⟩ = ⟨past ++ [.checked l v r], .apart⟩ := rfl

end Inspection

open Inspection

/-! ### Scripts -/

namespace Session

variable {α : Type} {past : List Visit}

/-- Scripts that do not look at the paused program adhere to the protocol. -/
theorem Within.asking {s : Script α} (hs : s.Within Inspection.Idle) :
    s.Adheres asking (fun p _ => p = ⟨past, .apart⟩) ⟨past, .apart⟩ :=
  Within.adheres hs (fun _ ha => ⟨may_idle ha, next_idle ha⟩) fun _ => rfl

/-- A question is put in one way: its request goes out, and the answer is read. -/
theorem fetch_eq (k : Key) :
    fetch k = (do return (← request k.command k.arguments).bind k.reading) := by
  have hshape {α : Type} [Typed α] [Inhabited α] (command : String) (v : Value) (f : α → Answer) :
      (do
        let body : Except DebugError α ← requestBody command v
        return body.map f : Script (Except DebugError Answer)) =
      (do return (← request command v).bind fun r => (Script.bodyOf command r).map f) := by
    unfold requestBody
    generalize request command v = s
    induction s with
    | done r => cases r <;> rfl
    | act a next ih => exact congrArg (Script.act a) (funext ih)
  cases k with
  | stack thread => exact hshape ..
  | scopes frame => exact hshape ..
  | values reference => exact hshape ..

/-- A look at the paused program. -/
theorem within_inspect {kind : Action → Prop} (hkind : ∀ a, Passive a → kind a)
    (hjoin : ∀ q, kind (.join q)) (hacquire : ∀ k, kind (.acquire k))
    (hdeliver : ∀ k r, kind (.deliver k r)) (hconfirm : ∀ g v, kind (.confirm g v))
    (hsend : ∀ (k : Key) v, kind (.send k.command v)) (q : Query) : (inspect q).Within kind := by
  refine Within.andThen (within_perform (hjoin q)) fun k => ?_
  refine Within.bind (within_perform (hacquire k)) fun found => ?_
  cases found with
  | some v => exact within_perform (hconfirm ..)
  | none =>
    refine Within.andThen (Within.bind ?_ fun r => within_perform (hdeliver k r)) fun v =>
      within_perform (hconfirm ..)
    rw [fetch_eq]
    exact Within.bind (within_request hkind (hsend k.key _)) fun _ => trivial

/-- Who is to ask puts the question, and knows what has become of it. -/
theorem adheres_fetch (l : Look) :
    (fetch l.ticket.key).Adheres asking
      (fun p r => ∃ f : Fetch, f.look = l ∧ r = f.outcome ∧ p = ⟨past, .told f⟩) ⟨past, .asks l⟩ := by
  rw [fetch_eq]
  refine Adheres.bind (Adheres.bind (adheres_perform ⟨rfl, rfl⟩ fun sending => ?_))
  cases sending with
  | error e =>
    rw [next_unsent]
    exact ⟨⟨l, none, .error e⟩, rfl, rfl, rfl⟩
  | ok x =>
    rw [next_sent]
    refine Adheres.bind (adheres_perform trivial fun t => ?_)
    rw [next_limit]
    refine adheres_perform rfl fun r => ?_
    rw [next_response]
    exact ⟨⟨l, some x.seq, r⟩, rfl, rfl, rfl⟩

/-- **A look at the paused program** is over with its result. -/
theorem adheres_inspect (past : List Visit) (q : Query) :
    (inspect q).Adheres asking
      (fun p r => ∃ t : Visit, t.query = q ∧ r = t.result ∧ p = ⟨past ++ [t], .apart⟩)
      ⟨past, .apart⟩ := by
  have hcheck (l : Look) (hl : l.query = q) (v : View) :
      (perform (.confirm l.ticket.generation v)).Adheres asking
        (fun p r => ∃ t : Visit, t.query = q ∧ r = t.result ∧ p = ⟨past ++ [t], .apart⟩)
        ⟨past, .checks l v⟩ :=
    adheres_perform ⟨rfl, rfl⟩ fun r => ⟨.checked l v r, hl, rfl, next_checked ..⟩
  refine Adheres.andThen (adheres_perform trivial fun joining => ?_)
  cases joining with
  | error e => exact ⟨.refused q e, rfl, rfl, next_refused ..⟩
  | ok k =>
    rw [next_joined]
    refine Adheres.bind (adheres_perform rfl fun found => ?_)
    cases found with
    | some v =>
      rw [next_known]
      exact hcheck ⟨q, k⟩ rfl v
    | none =>
      rw [next_mine]
      refine Adheres.andThen (Adheres.bind ((adheres_fetch ⟨q, k⟩).mono fun p r hp => ?_))
      obtain ⟨f, hf, rfl, rfl⟩ := hp
      refine adheres_perform ⟨by rw [hf], rfl⟩ fun delivered => ?_
      cases delivered with
      | error e =>
        exact ⟨.failed f e, by rw [Visit.query, hf], rfl, next_failed ..⟩
      | ok v =>
        rw [next_filled, hf]
        exact hcheck ⟨q, k⟩ rfl v

end Session
end DebugHost
