import DebugHost.Proofs.Session.Reigns
import DebugHost.Proofs.Threads.Asking
import Mathlib.Data.Finset.Erase
import Mathlib.Data.Finset.Insert
import Mathlib.Data.List.Induction

/-! # The table of threads

The table is written in two ways (`Threads.Write`): the session applies an event that it takes from its
queue, and a call for the threads stores what its answer makes. The table is what is written, one after
the other (`Crowd.threads_after`). Of the threads that are known, one that has exited goes, any other one
comes, and an answer counts alone (`Threads.ids_tableOf`); so all depends on the last answer and on the
events behind it (`Threads.tableOf_eq`).

What the adapter tells of threads, message by message, is put down beside it (`Crowd.news`). The two have
their events in common, as far as the session has taken those that were read (`Crowd.events_of_writes`,
`Crowd.events_of_news`). -/

namespace DebugHost

open DebugHost.Session DebugHost.Script

variable {ρ : Type}

/-- The threads that a table knows. -/
def ThreadTable.ids (t : ThreadTable) : Finset Int := (t.entries.map (·.1)).toFinset

namespace Threads

/-! ### The threads that are known -/

theorem mem_ids {t : ThreadTable} {i : Int} : i ∈ t.ids ↔ ∃ p ∈ t.entries, p.1 = i := by
  simp only [ThreadTable.ids, List.mem_toFinset, List.mem_map]

theorem contains_iff {t : ThreadTable} {i : Int} : t.contains i = true ↔ i ∈ t.ids := by
  simp only [ThreadTable.contains, mem_ids, List.any_eq_true, beq_iff_eq]

@[simp] theorem ids_insert (t : ThreadTable) (i : Int) (name : String) :
    (t.insert i name).ids = insert i t.ids := by
  show ((ThreadTable.insertEntry i name t.entries).map (·.1)).toFinset =
    insert i (t.entries.map (·.1)).toFinset
  generalize t.entries = es
  induction es with
  | nil => rfl
  | cons p es ih =>
    simp only [ThreadTable.insertEntry]
    split
    · simp only [List.map_cons, List.toFinset_cons]
    · split
      · next hi => simp only [hi, List.map_cons, List.toFinset_cons, Finset.insert_idem]
      · simp only [List.map_cons, List.toFinset_cons, ih, Finset.insert_comm p.1 i]

@[simp] theorem ids_erase (t : ThreadTable) (i : Int) : (t.erase i).ids = t.ids.erase i := by
  ext j
  simp only [ThreadTable.erase, mem_ids, List.mem_filter, Finset.mem_erase, bne_iff_ne]
  constructor
  · rintro ⟨p, ⟨hp, hi⟩, rfl⟩
    exact ⟨hi, p, hp, rfl⟩
  · rintro ⟨hj, p, hp, rfl⟩
    exact ⟨p, ⟨hp, hj⟩, rfl⟩

/-- The table of an answer knows the threads that the answer lists. -/
theorem ids_ofList (ts : List ProgramThread) :
    (ThreadTable.ofList ts).ids = (ts.map (·.id)).toFinset := by
  induction ts using List.reverseRecOn with
  | nil => rfl
  | append_singleton ts p ih =>
    have hsnoc : ThreadTable.ofList (ts ++ [p]) = (ThreadTable.ofList ts).insert p.id p.name := by
      simp only [ThreadTable.ofList, List.foldl_append, List.foldl_cons, List.foldl_nil]
    rw [hsnoc, ids_insert, ih]
    ext j
    simp only [Finset.mem_insert, List.mem_toFinset, List.map_append, List.mem_append, List.map_cons,
      List.map_nil, List.mem_singleton, or_comm]

theorem ids_of_table {r : Response} {t : ThreadTable} (h : table? r = some t) :
    ∃ body : ThreadsBody, Script.bodyOf "threads" r = .ok body ∧
      t.ids = (body.threads.map (·.id)).toFinset := by
  unfold table? at h
  split at h
  · next body hbody =>
    cases h
    exact ⟨body, hbody, ids_ofList body.threads⟩
  · cases h

/-! ### Writes -/

/-- What is done to the table. -/
inductive Write where
  /-- An event about a thread is applied to it. -/
  | event (b : ThreadBody)
  /-- The table of an answer replaces it. -/
  | answer (t : ThreadTable)

def Write.event? : Write → Option ThreadBody
  | .event b => some b
  | .answer _ => none

/-- The table after a write. -/
def write (t : ThreadTable) : Write → ThreadTable
  | .event b => t.apply b
  | .answer u => u

/-- What writes make of the empty table, one after the other. -/
def tableOf (ws : List Write) : ThreadTable := ws.foldl write {}

@[simp] theorem tableOf_snoc (ws : List Write) (w : Write) :
    tableOf (ws ++ [w]) = write (tableOf ws) w := by
  simp only [tableOf, List.foldl_append, List.foldl_cons, List.foldl_nil]

/-- The threads that are known after a write, if these were known before it. -/
def know (known : Finset Int) : Write → Finset Int
  | .event b => if b.reason = "exited" then known.erase b.threadId else insert b.threadId known
  | .answer t => t.ids

theorem ids_write (t : ThreadTable) (w : Write) : (write t w).ids = know t.ids w := by
  cases w with
  | answer u => rfl
  | event b =>
    simp only [write, ThreadTable.apply, know]
    split
    · exact ids_erase t b.threadId
    · split
      · next hc => exact (Finset.insert_eq_of_mem (contains_iff.mp hc)).symm
      · exact ids_insert t b.threadId _

/-- **The threads that are known** after some writes: one that has exited goes, any other one comes, and
an answer counts alone. -/
theorem ids_tableOf (ws : List Write) : (tableOf ws).ids = ws.foldl know ∅ := by
  induction ws using List.reverseRecOn with
  | nil => rfl
  | append_singleton ws w ih =>
    rw [tableOf_snoc, ids_write, ih, List.foldl_append, List.foldl_cons, List.foldl_nil]

/-! ### The last answer -/

/-- The table of the last answer, or the empty one, and the events behind it. -/
def latest (ws : List Write) : ThreadTable × List ThreadBody :=
  ws.foldl (fun p w => match w with
    | .event b => (p.1, p.2 ++ [b])
    | .answer t => (t, [])) ({}, [])

theorem latest_event (ws : List Write) (b : ThreadBody) :
    latest (ws ++ [.event b]) = ((latest ws).1, (latest ws).2 ++ [b]) := by
  simp only [latest, List.foldl_append, List.foldl_cons, List.foldl_nil]

theorem latest_answer (ws : List Write) (t : ThreadTable) : latest (ws ++ [.answer t]) = (t, []) := by
  simp only [latest, List.foldl_append, List.foldl_cons, List.foldl_nil]

/-- What counts is the last answer, and the events behind it. -/
theorem tableOf_eq (ws : List Write) :
    tableOf ws = (latest ws).2.foldl ThreadTable.apply (latest ws).1 := by
  induction ws using List.reverseRecOn with
  | nil => rfl
  | append_singleton ws w ih =>
    rw [tableOf_snoc]
    cases w with
    | event b => rw [latest_event, ih, List.foldl_append]; rfl
    | answer t => rw [latest_answer]; rfl

/-- The events behind the last answer are the last ones. -/
theorem latest_suffix (ws : List Write) : (latest ws).2 <:+ ws.filterMap Write.event? := by
  induction ws using List.reverseRecOn with
  | nil => exact List.suffix_rfl
  | append_singleton ws w ih =>
    rw [List.filterMap_append]
    cases w with
    | answer t => rw [latest_answer]; exact List.nil_suffix
    | event b =>
      obtain ⟨es, hes⟩ := ih
      rw [latest_event]
      exact ⟨es, by rw [← hes, List.append_assoc]; rfl⟩

/-- **The order of answers and events** is no matter as long as the last answer is the same, and as many
events stand behind it. -/
theorem tableOf_congr {ws us : List Write}
    (hevents : ws.filterMap Write.event? = us.filterMap Write.event?)
    (hanswer : (latest ws).1 = (latest us).1)
    (hbehind : (latest ws).2.length = (latest us).2.length) : tableOf ws = tableOf us := by
  have hus := latest_suffix us
  rw [← hevents] at hus
  have hsame : (latest ws).2 = (latest us).2 :=
    (List.suffix_of_suffix_length_le (latest_suffix ws) hus (Nat.le_of_eq hbehind)).eq_of_length hbehind
  rw [tableOf_eq, tableOf_eq, hanswer, hsame]

end Threads

open Threads

/-! ### Who writes -/

/-- What an event says about a thread, if it is about one. -/
def Event.thread? (e : Event) : Option ThreadBody :=
  if e.kind = .thread then some (bodyOf ThreadBody e) else none

/-- The table that is stored. -/
def Script.Deed.kept? : Deed → Option ThreadTable
  | ⟨.keepThreads t, _⟩ => some t
  | _ => none

/-- The request for the threads that is sent. -/
def Script.Deed.asksThreads? : Deed → Option Int
  | ⟨.send command _, .ok x⟩ => if command = "threads" then some x.seq else none
  | _ => none

namespace Session.State

/-- Of what a session takes only events about threads are written to its table. -/
theorem threads_note (s : State) (i : Input) :
    (s.note i).threads = (i.event?.bind Event.thread?).elim s.threads s.threads.apply := by
  cases i with
  | event e =>
    simp only [note, Input.event?, Option.bind_some, Event.thread?]
    split
    · next hk => rw [if_neg (by rw [hk]; decide)]; rfl
    · next hk => rw [if_pos hk]; rfl
    · next _ hk => rw [if_neg hk]; rfl
  | closed reason => rfl
  | command cmd =>
    rcases note_command s cmd with h | h
    · rw [h]; rfl
    · rw [h]; rfl

theorem threads_handles {s : State} {c : Connection} {i : Input} {o : Outcome}
    (h : Handles s c i o) :
    o.state.threads = (i.event?.bind Event.thread?).elim s.threads s.threads.apply := by
  cases h with
  | stays _ hs => rw [hs, threads_note]
  | enters st _ _ _ hs => rw [hs]; exact threads_note s i
  | resumes kind thread ticket hi _ _ hs => rw [hs, hi]; rfl
  | ends cause _ _ hs => rw [hs]; exact threads_note s i

end Session.State

namespace Debugger

/-- Of what tasks do only the storing of a table is written to it. -/
theorem threads_attempt (d : Debugger ρ) (me : Nat) (a : Action) :
    (d.attempt me a).1.room.state.threads =
      ((d.attempt me a).2.deed?.bind Deed.kept?).getD d.room.state.threads := by
  cases a with
  | send command arguments => simp only [attempt, Debugger.send]; split <;> rfl
  | response x => simp only [attempt]; split <;> rfl
  | post c => simp only [attempt, post]; split <;> rfl
  | order o => simp only [attempt]; split <;> rfl
  | outcome ticket => simp only [attempt]; split <;> rfl
  | await states deadline =>
    simp only [attempt]
    split
    · rfl
    · split <;> rfl
  | lock =>
    have h := congrArg State.threads (lock_keeps d.room me).1
    simp only [attempt]
    split <;> (next hr => rw [hr] at h; exact h)
  | unlock s =>
    have h := congrArg State.threads (unlock_keeps d.room s).1
    simp only [attempt]
    split <;> (next hr => rw [hr] at h; exact h)
  | acquire k => simp only [attempt]; split <;> rfl
  | deliver k r =>
    simp only [attempt]
    rcases d.room.state.tree.deliver k r with ⟨v, tree, woken⟩
    simp only [(foldl_signal (d.withTree tree) .slot woken).1]
    rfl
  | _ => rfl

theorem threads_stride (d : Debugger ρ) (me : Nat) :
    (d.stride me).room.state.threads = ((own? d me).bind Deed.kept?).getD d.room.state.threads := by
  have hgoes := goes d me
  generalize own? d me = x, d.stride me = d' at hgoes ⊢
  cases hgoes with
  | idle => rfl
  | does t x next e ht hn ha =>
    have h := threads_attempt (d.without me) me x.action
    rw [ha] at h
    exact h
  | waits t a next e ss deadline ht hn ha =>
    have h := threads_attempt (d.without me) me a
    rw [ha] at h
    exact h
  | ends t told ht ho => rfl

end Debugger

namespace Crowd

open Debugger

/-! ### What is written -/

section Writes

variable {fit : Script ρ → Prop} {d : Debugger ρ} {σ : Nat → Happening fit} {n : Nat}

/-- What is written to the table when something happens. -/
def write? (d : Debugger ρ) : Happening fit → Option Write
  | .task me => ((own? d me).bind Deed.kept?).map .answer
  | h => (((input? d h).bind Input.event?).bind Event.thread?).map .event

/-- What has been written while the first `n` things have happened, oldest first. -/
def writes (d : Debugger ρ) (σ : Nat → Happening fit) : Nat → List Write
  | 0 => []
  | n + 1 => writes d σ n ++ (write? (after d σ n) (σ n)).toList

theorem threads_happen (d : Debugger ρ) (h : Happening fit) :
    (happen d h).room.state.threads = (write? d h).toList.foldl write d.room.state.threads := by
  cases h with
  | task me =>
    refine (threads_stride d me).trans ?_
    simp only [write?]
    cases (own? d me).bind Deed.kept? <;> rfl
  | session =>
    cases hi : input? d (.session : Happening fit) with
    | none =>
      have hstate : d.attend.room.state = d.room.state := by
        cases attends d with
        | leaves ho hd => rw [hd]; exact (leave_keeps d).1
        | rests ho hn hd => rw [hd]
        | takes i room ho hn hd => rw [input?, if_neg ho, hn] at hi; cases hi
      simp only [write?, hi]
      exact congrArg State.threads hstate
    | some i =>
      obtain ⟨-, o, hh, hs⟩ := handles_happen hi
      rw [hs, State.threads_handles hh]
      simp only [write?, hi, Option.bind_some]
      cases i.event?.bind Event.thread? <;> rfl
  | outside m hm => exact congrArg State.threads (room_outer d hm).1
  | call id s hs => rfl
  | lift me => simp only [happen]; split <;> rfl
  | lay me t => simp only [happen]; split <;> rfl
  | aside e => rfl

/-- **The table is what is written to it**, one after the other. -/
theorem threads_after (h0 : d.room.state.threads = {}) (σ : Nat → Happening fit) (n : Nat) :
    (session d σ n).threads = tableOf (writes d σ n) := by
  induction n with
  | zero => exact h0
  | succ n ih =>
    have hstep := threads_happen (after d σ n) (σ n)
    rw [show (after d σ n).room.state.threads = _ from ih] at hstep
    exact hstep.trans (List.foldl_append ..).symm

/-- The events that are written are those that the session takes. -/
theorem events_of_writes (d : Debugger ρ) (σ : Nat → Happening fit) (n : Nat) :
    (writes d σ n).filterMap Write.event? = (taken d σ n).filterMap Event.thread? := by
  induction n with
  | zero => rfl
  | succ n ih =>
    rw [writes, taken, List.filterMap_append, List.filterMap_append, ih]
    congr 1
    cases σ n with
    | task me =>
      simp only [write?, input?]
      cases (own? (after d σ n) me).bind Deed.kept? <;> rfl
    | session =>
      simp only [write?]
      cases (input? (after d σ n) (.session : Happening fit)).bind Input.event? with
      | none => rfl
      | some e =>
        simp only [Option.bind_some, Option.toList_some, List.filterMap_cons, List.filterMap_nil]
        cases e.thread? <;> rfl
    | _ => rfl

/-! ### What the adapter tells -/

/-- The numbers of the requests for the threads that have been sent. -/
def inquiries (d : Debugger ρ) (σ : Nat → Happening fit) (n : Nat) : List Int :=
  gathered d σ (fun _ _ x => x.asksThreads?) n

/-- What the message says of threads that is read when the next thing happens: it is an event about one,
or the answer to a request for them that is still waited for. -/
def news? (d : Debugger ρ) (σ : Nat → Happening fit) (n : Nat) : Option Write :=
  match read? (after d σ n) (σ n) with
  | some (.event e) => e.thread?.map .event
  | some (.response r) =>
    if r.success = true ∧ r.requestSeq ∈ (after d σ n).link.connection.pending ∧
      r.requestSeq ∈ inquiries d σ n then (table? r).map .answer else none
  | _ => none

/-- What the adapter has told of threads, in the order of its messages. -/
def news (d : Debugger ρ) (σ : Nat → Happening fit) : Nat → List Write
  | 0 => []
  | n + 1 => news d σ n ++ (news? d σ n).toList

/-- The events among the news are those that are read. -/
theorem events_of_news (d : Debugger ρ) (σ : Nat → Happening fit) (n : Nat) :
    (news d σ n).filterMap Write.event? = (heard d σ n).filterMap Event.thread? := by
  induction n with
  | zero => rfl
  | succ n ih =>
    rw [news, heard, List.filterMap_append, List.filterMap_append, ih]
    congr 1
    unfold news?
    cases read? (after d σ n) (σ n) with
    | none => rfl
    | some m =>
      cases m with
      | event e =>
        simp only [Option.bind_some, Message.event?, Option.toList_some, List.filterMap_cons,
          List.filterMap_nil]
        cases e.thread? <;> rfl
      | request q => rfl
      | response r =>
        simp only
        split
        · cases table? r <;> rfl
        · rfl

end Writes
end Crowd
end DebugHost
