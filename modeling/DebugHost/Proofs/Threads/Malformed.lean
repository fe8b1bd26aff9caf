import DebugHost.Proofs.Session.Ending
import DebugHost.Proofs.Threads.Table

/-! # Events about threads that cannot be read

A session that is given an event about a thread puts down what the body says (`Event.said?`). If there is no
body, or none that can be read, it takes the default body in its place, and this one names the thread 0. So
the table is not the one that the readable events make (`Threads.listed`), but the one that counts each
unreadable event as one more start of thread 0 (`Threads.heeded`, `Debugger.ids_takes`); the two differ in this
thread alone (`Threads.heeded_iff`). -/

namespace DebugHost

open DebugHost.Json DebugHost.Session

/-! ### What the events say -/

/-- What the body of an event about a thread says, if it can be read. -/
def Event.said? (e : Event) : Option ThreadBody :=
  if e.kind = .thread then e.body.bind fun v => (Typed.read (α := ThreadBody) v).toOption else none

/-- An event about a thread without a body that can be read. -/
def Event.IsMalformed (e : Event) : Prop := e.kind = .thread ∧ e.said? = none

instance (e : Event) : Decidable e.IsMalformed := by
  unfold Event.IsMalformed
  infer_instance

theorem Session.bodyOf_eq (α : Type) [Typed α] [Inhabited α] (e : Event) :
    bodyOf α e = (readBody (α := α) e.body).toOption.getD default := by
  rw [bodyOf, State.eventBody]
  split
  · next h => rw [h]; rfl
  · next h => rw [h]; rfl

/-- What is taken from an event about a thread is what it says, or else the default. -/
theorem Event.thread_eq (e : Event) :
    e.thread? = if e.kind = .thread then some (e.said?.getD default) else none := by
  by_cases h : e.kind = .thread
  · have hread : (readBody (α := ThreadBody) e.body).toOption.getD default =
        (e.body.bind fun v => (Typed.read (α := ThreadBody) v).toOption).getD default := by
      -- `null` is read as no body, and no thread can be read from it either
      rcases e.body with _ | v
      · rfl
      · cases v <;> rfl
    rw [thread?, said?, if_pos h, if_pos h, if_pos h, bodyOf_eq, hread]
  · rw [thread?, if_neg h, if_neg h]

namespace Threads

/-- The threads that are listed after an event by one who leaves out what cannot be read. -/
def listed (known : Finset Int) (e : Event) : Finset Int :=
  e.said?.elim known fun b => know known (.event b)

/-- The threads that are listed after an event by one who takes what cannot be read for a start of
thread 0. -/
def heeded (known : Finset Int) (e : Event) : Finset Int :=
  if e.IsMalformed then insert 0 known else listed known e

/-- What a session puts down of an event. -/
theorem heeded_eq (known : Finset Int) (e : Event) :
    heeded known e = e.thread?.elim known fun b => know known (.event b) := by
  rw [heeded, listed, Event.thread_eq]
  by_cases hk : e.kind = .thread
  · rw [if_pos hk]
    cases hs : e.said? with
    | none => rw [if_pos ⟨hk, hs⟩]; rfl
    | some b =>
      exact if_neg fun hm => by rw [hm.2] at hs; cases hs
  · rw [if_neg hk, if_neg fun hm => hk hm.1, Event.said?, if_neg hk]

/-- An event says the same of a thread to all who differ in other threads only. -/
theorem mem_listed_congr {known known' : Finset Int} {i : Int} (h : i ∈ known ↔ i ∈ known') (e : Event) :
    i ∈ listed known e ↔ i ∈ listed known' e := by
  unfold listed
  cases e.said? with
  | none => exact h
  | some b =>
    simp only [Option.elim_some, know]
    split
    · simp only [Finset.mem_erase, h]
    · simp only [Finset.mem_insert, h]

/-- **Only thread 0 is listed for what cannot be read.** -/
theorem heeded_iff {known known' : Finset Int} {i : Int} (hi : i ≠ 0) (h : i ∈ known ↔ i ∈ known')
    (es : List Event) : i ∈ es.foldl heeded known ↔ i ∈ es.foldl listed known' := by
  induction es generalizing known known' with
  | nil => exact h
  | cons e es ih =>
    refine ih ?_
    unfold heeded
    split
    · next hm =>
      have hsame : listed known' e = known' := by rw [listed, hm.2]; rfl
      rw [hsame, Finset.mem_insert, or_iff_right hi]
      exact h
    · exact mem_listed_congr h e

/-- Where all can be read, nothing else is listed. -/
theorem heeded_of_readable {es : List Event} (h : ∀ e ∈ es, ¬ e.IsMalformed) (known : Finset Int) :
    es.foldl heeded known = es.foldl listed known := by
  induction es generalizing known with
  | nil => rfl
  | cons e es ih =>
    have he : heeded known e = listed known e := if_neg (h e (List.mem_cons_self ..))
    rw [List.foldl_cons, List.foldl_cons, he]
    exact ih (fun e' he' => h e' (List.mem_cons_of_mem e he')) _

/-- Who is listed has been named by an event that can be read, or is thread 0 and there is one that cannot. -/
theorem named_of_heeded {i : Int} (es : List Event) (h : i ∈ es.foldl heeded ∅) :
    (∃ e ∈ es, ∃ b, e.said? = some b ∧ b.threadId = i) ∨ (i = 0 ∧ ∃ e ∈ es, e.IsMalformed) := by
  induction es using List.reverseRecOn with
  | nil => cases h
  | append_singleton es e ih =>
    have hbefore (hi : i ∈ es.foldl heeded ∅) :
        (∃ e' ∈ es ++ [e], ∃ b, e'.said? = some b ∧ b.threadId = i) ∨
          (i = 0 ∧ ∃ e' ∈ es ++ [e], e'.IsMalformed) := by
      rcases ih hi with ⟨e', he', hsaid⟩ | ⟨h0, e', he', hm⟩
      · exact Or.inl ⟨e', List.mem_append_left _ he', hsaid⟩
      · exact Or.inr ⟨h0, e', List.mem_append_left _ he', hm⟩
    have hlast : e ∈ es ++ [e] := List.mem_append_right es (List.mem_singleton_self e)
    rw [List.foldl_append, List.foldl_cons, List.foldl_nil, heeded] at h
    split at h
    · next hm =>
      rcases Finset.mem_insert.mp h with rfl | h
      · exact Or.inr ⟨rfl, e, hlast, hm⟩
      · exact hbefore h
    · cases hs : e.said? with
      | none =>
        rw [listed, hs] at h
        exact hbefore h
      | some b =>
        rw [listed, hs] at h
        simp only [Option.elim_some, know] at h
        split at h
        · exact hbefore (Finset.mem_of_mem_erase h)
        · rcases Finset.mem_insert.mp h with rfl | h
          · exact Or.inl ⟨e, hlast, b, hs, rfl⟩
          · exact hbefore h

/-- How a list of threads comes from the events that were taken. -/
structure Listing (ids : Finset Int) (es : List Event) : Prop where
  /-- Each event does its part, and one that cannot be read adds thread 0. -/
  made : ids = es.foldl heeded ∅
  /-- Where all can be read, they make the list. -/
  readable : (∀ e ∈ es, ¬ e.IsMalformed) → ids = es.foldl listed ∅
  /-- On every thread but 0 what cannot be read has no effect. -/
  others : ∀ i ≠ 0, (i ∈ ids ↔ i ∈ es.foldl listed ∅)
  /-- Thread 0 is listed right after an event that cannot be read. -/
  phantom : ∀ es' e, es = es' ++ [e] → e.IsMalformed → 0 ∈ ids
  /-- Nothing is listed for any other reason. -/
  named : ∀ i ∈ ids, (∃ e ∈ es, ∃ b, e.said? = some b ∧ b.threadId = i) ∨
    (i = 0 ∧ ∃ e ∈ es, e.IsMalformed)

end Threads

namespace Debugger

open DebugHost.Threads

variable {ρ : Type} {d : Debugger ρ}

/-! ### What a session puts down -/

/-- The events among inputs up to the first that ends the session. -/
def eventsOf (is : List Input) : List Event :=
  (is.takeWhile fun i => i.cause?.isNone).filterMap Input.event?

/-- An input that ends a session says nothing about threads. -/
theorem thread_of_cause {i : Input} {cause : Termination} (h : i.cause? = some cause) :
    i.event?.bind Event.thread? = none := by
  cases i with
  | event e =>
    have hk : e.kind ≠ .thread := by
      intro hk
      simp only [Input.cause?, hk] at h
      cases h
    exact if_neg hk
  | closed reason => rfl
  | command cmd => rfl

/-- A session that has ended takes nothing, whatever it is given. -/
theorem takes_over (ho : d.Over) (is : List Input) : d.takes is = d := by
  induction is with
  | nil => rfl
  | cons i is ih => rw [takes_cons, input_over ho, ih]

/-- **What a session lists** is made of the events that it takes before its end, one after the other. -/
theorem ids_takes (ho : ¬ d.Over) (is : List Input) :
    (d.takes is).room.state.threads.ids = (eventsOf is).foldl heeded d.room.state.threads.ids := by
  induction is generalizing d with
  | nil => rfl
  | cons i is ih =>
    obtain ⟨-, -, es, hh, -, -⟩ := handles_move (if_neg ho : d.taken? (.input i) = some i)
    have hthreads : (d.move (.input i)).room.state.threads = _ := State.threads_handles hh
    rw [takes_cons]
    cases hw : i.cause? with
    | none =>
      obtain ⟨hgoes, -, -⟩ := State.handles_goesOn ho hw hh
      have hevents : eventsOf (i :: is) = i.event?.toList ++ eventsOf is := by
        unfold eventsOf
        rw [List.takeWhile_cons_of_pos (by rw [hw]; rfl), List.filterMap_cons]
        cases i.event? <;> rfl
      rw [ih hgoes, hthreads, hevents, List.foldl_append]
      congr 1
      cases i.event? with
      | none => rfl
      | some e =>
        rw [Option.bind_some, Option.toList_some, List.foldl_cons, List.foldl_nil, heeded_eq]
        cases e.thread? with
        | none => rfl
        | some b => exact ids_write d.room.state.threads (.event b)
    | some cause =>
      obtain ⟨hover, -⟩ := State.handles_over hw hh
      have hevents : eventsOf (i :: is) = [] := by
        unfold eventsOf
        rw [List.takeWhile_cons_of_neg (by rw [hw]; simp)]
        rfl
      rw [takes_over hover, hthreads, thread_of_cause hw, hevents]
      rfl

/-- **An event about a thread that cannot be read counts as a start of thread 0**, and as nothing else. A
session takes any inputs from its beginning on, and the threads that it lists are those of the events up to
its end: each one that can be read adds its thread, or removes it if it has exited, and each one that cannot
be read adds thread 0. -/
theorem malformed_threads (d : Debugger ρ) (id : SessionId) (attached : Bool) (is : List Input) :
    Listing ((d.fresh id attached).takes is).room.state.threads.ids (eventsOf is) := by
  have hmade : ((d.fresh id attached).takes is).room.state.threads.ids = (eventsOf is).foldl heeded ∅ :=
    ids_takes (d := d.fresh id attached) (fun h => RunState.noConfusion h) is
  rw [hmade]
  refine ⟨rfl, fun h => heeded_of_readable h ∅, fun i hi => heeded_iff hi Iff.rfl (eventsOf is), ?_,
    fun i hi => named_of_heeded (eventsOf is) hi⟩
  rintro es' e he hm
  rw [he, List.foldl_append, List.foldl_cons, List.foldl_nil, heeded, if_pos hm]
  exact Finset.mem_insert_self 0 _

/-- An event that tells of a thread with a name in the place of its number. -/
def namelessThread : Input :=
  .event ⟨1, "thread", some (.obj [("reason", .str "started"), ("threadId", .str "x")])⟩

/-- It names no thread, and still one is listed. -/
theorem nameless_listed :
    (begun.takes [namelessThread]).room.state.threads.ids ≠ (eventsOf [namelessThread]).foldl listed ∅ := by
  decide +kernel

end Debugger
end DebugHost
