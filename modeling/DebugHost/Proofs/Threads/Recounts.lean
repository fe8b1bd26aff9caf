import DebugHost.Proofs.Debugger.Places
import DebugHost.Proofs.Threads.Table

/-! # Threads and the order of messages

No table is stored but that of an answer which the adapter has given to a request of the same call
(`Crowd.stored`). The adapter tells one thing after the other, but an answer is stored by the call that
waits for it, and an event is applied by the session: if both are at hand, it depends on who comes first
whether the event counts (`Crowd.either`). The table is what the messages say in their order if the last
answer is the last that was stored and has as many events behind it (`Crowd.agrees`), but not always
(`Crowd.out_of_order`). -/

namespace DebugHost

open DebugHost.Session DebugHost.Script DebugHost.Threads

variable {ρ : Type}

namespace Crowd

open Debugger

section Calls

variable {d : Debugger ρ} {σ : Nat → Happening (Threads.Fit (ρ := ρ))} {m n : Nat}

theorem governs_counting : Governs counting (Threads.Fit (ρ := ρ)) where
  rests := rfl
  calls _ h := h
  watches x epoch ticket :=
    Within.counting ((within_watchResume x epoch ticket).mono fun _ => idle_of_neutral)

/-- How far the task `me` is with its call for the threads when `n` things have happened. -/
def stand (d : Debugger ρ) (σ : Nat → Happening (Threads.Fit (ρ := ρ))) (n me : Nat) :
    Threads.Stand := counting.place (deeds d σ n me)

theorem kept_counting (timeout : Duration) (id : SessionId)
    (σ : Nat → Happening (Threads.Fit (ρ := ρ))) (n : Nat) : Kept counting (opened timeout id) σ n :=
  kept governs_counting below_opened bare_opened σ n

/-! ### Where a table comes from -/

/-- The task `me` has asked for the threads with the request `seq`. -/
def Inquired (d : Debugger ρ) (σ : Nat → Happening (Threads.Fit (ρ := ρ))) (n me : Nat) (seq : Int) :
    Prop :=
  ∃ i < n, ∃ v y, deed? (after d σ i) (σ i) = some (me, ⟨.send "threads" v, .ok y⟩) ∧ y.seq = seq

/-- The task `me` has asked for the threads, and the adapter has given it the answer `r`, which makes
the table `t`. -/
structure Learned (d : Debugger ρ) (σ : Nat → Happening (Threads.Fit (ρ := ρ))) (n me : Nat)
    (r : Response) (t : ThreadTable) : Prop where
  inquired : Inquired d σ n me r.requestSeq
  heard : ∃ m < n, Heard (after d σ m) (σ m) r
  success : r.success = true
  table : table? r = some t

/-- What a task in a call for the threads has done so far. -/
def Counting (d : Debugger ρ) (σ : Nat → Happening (Threads.Fit (ρ := ρ))) (n me : Nat) :
    Threads.Stand → Prop
  | .apart => True
  | .sent seq => Inquired d σ n me seq
  | .told r t => Learned d σ n me r t

theorem Inquired.mono {me : Nat} {seq : Int} (h : Inquired d σ m me seq) (hmn : m ≤ n) :
    Inquired d σ n me seq := by
  obtain ⟨i, hi, h⟩ := h
  exact ⟨i, Nat.lt_of_lt_of_le hi hmn, h⟩

theorem Counting.mono {me : Nat} {st : Threads.Stand} (h : Counting d σ m me st) (hmn : m ≤ n) :
    Counting d σ n me st := by
  cases st with
  | apart => exact trivial
  | sent seq => exact Inquired.mono h hmn
  | told r t =>
    obtain ⟨hinquired, ⟨j, hj, hheard⟩, hsuccess, htable⟩ := h
    exact ⟨hinquired.mono hmn, ⟨j, Nat.lt_of_lt_of_le hj hmn, hheard⟩, hsuccess, htable⟩

/-- **Who has a table has asked for it**, and has it from the adapter. -/
theorem counting_after (timeout : Duration) (id : SessionId)
    (σ : Nat → Happening (Threads.Fit (ρ := ρ))) (n me : Nat) :
    Counting (opened timeout id) σ n me (stand (opened timeout id) σ n me) := by
  induction n with
  | zero => exact trivial
  | succ n ih =>
    have hstays (h : stand (opened timeout id) σ (n + 1) me = stand (opened timeout id) σ n me) :
        Counting (opened timeout id) σ (n + 1) me (stand (opened timeout id) σ (n + 1) me) := by
      rw [h]
      exact ih.mono (Nat.le_succ n)
    cases hx : deed? (after (opened timeout id) σ n) (σ n) with
    | none => exact hstays (congrFun (place_silent hx) me)
    | some w =>
      obtain ⟨k, x⟩ := w
      have hplace : stand (opened timeout id) σ (n + 1) =
          Function.update (stand (opened timeout id) σ n) k
            (counting.next (stand (opened timeout id) σ n k) x) := place_deed hx
      by_cases hkm : me = k
      · subst hkm
        have hmay : (stand (opened timeout id) σ n me).may x.action :=
          (kept_counting timeout id σ n).may hx
        have hgot := (attempt_of_deed hx).1
        rw [hplace, Function.update_self]
        generalize stand (opened timeout id) σ n me = st at ih hmay
        obtain ⟨a, r⟩ := x
        cases st with
        | apart =>
          cases a with
          | send command v =>
            cases r with
            | error e => exact trivial
            | ok y =>
              by_cases hc : command = "threads"
              · subst hc
                exact ⟨n, Nat.lt_succ_self n, v, y, hx, rfl⟩
              · rw [next_idle (by exact hc)]
                exact trivial
          | _ => exact trivial
        | sent seq =>
          cases a with
          | limit => exact ih.mono (Nat.le_succ n)
          | response y =>
            cases (show y.seq = seq from hmay)
            cases r with
            | error e => exact trivial
            | ok r =>
              rw [next_response]
              cases ht : table? r with
              | none => exact trivial
              | some t =>
                obtain ⟨hseq, hsuccess, m, hm, hheard⟩ := heard_of_told (by rw [opened_eq]; rfl) hgot
                refine ⟨?_, ⟨m, Nat.lt_succ_of_lt hm, hheard⟩, hsuccess, ht⟩
                rw [hseq]
                exact Inquired.mono ih (Nat.le_succ n)
          | _ => exact hmay.elim
        | told r' t =>
          cases a with
          | keepThreads u => exact trivial
          | _ => exact hmay.elim
      · exact hstays (by rw [hplace, Function.update_of_ne hkm])

/-- A table is written only by a task that stores it. -/
theorem stores_of_write {h : Happening (Threads.Fit (ρ := ρ))} {t : ThreadTable}
    (hw : write? d h = some (.answer t)) :
    ∃ me u, deed? d h = some (me, ⟨.keepThreads t, u⟩) := by
  have hevent {o : Option ThreadBody} (ho : o.map Write.event = some (.answer t)) : False := by
    cases o <;> cases ho
  cases h with
  | task me =>
    obtain ⟨u, hu, hut⟩ := Option.map_eq_some_iff.mp hw
    cases hut
    obtain ⟨⟨a, r⟩, hx, hkept⟩ := Option.bind_eq_some_iff.mp hu
    cases a with
    | keepThreads t' =>
      cases hkept
      exact ⟨me, r, by simp only [deed?, hx, Option.map_some]⟩
    | _ => cases hkept
  | session => exact (hevent hw).elim
  | _ => cases hw

/-- The table `t` that the task `me` stores in `k` is that of the answer `r`, read in `m`, to the request
that it had sent in `i`. -/
structure Stored (d : Debugger ρ) (σ : Nat → Happening (Threads.Fit (ρ := ρ))) (k me : Nat)
    (t : ThreadTable) (i m : Nat) (r : Response) : Prop where
  order : i < m ∧ m < k
  asked : ∃ v y, deed? (after d σ i) (σ i) = some (me, ⟨.send "threads" v, .ok y⟩) ∧
    y.seq = r.requestSeq
  answered : read? (after d σ m) (σ m) = some (.response r)
  told : news? d σ m = some (.answer t)
  lists : ∃ body : ThreadsBody, Script.bodyOf "threads" r = .ok body ∧
    t.ids = (body.threads.map (·.id)).toFinset

variable {timeout : Duration} {id : SessionId}

/-- **A table that is stored** is that of an answer to the call that stores it. -/
theorem stored {k : Nat} {t : ThreadTable}
    (hw : write? (after (opened timeout id) σ k) (σ k) = some (.answer t)) :
    ∃ me i m r, Stored (opened timeout id) σ k me t i m r := by
  obtain ⟨me, u, hx⟩ := stores_of_write hw
  have hmay : (stand (opened timeout id) σ k me).may (.keepThreads t) :=
    (kept_counting timeout id σ k).may hx
  have hlearned := counting_after timeout id σ k me
  cases hst : stand (opened timeout id) σ k me with
  | apart => rw [hst] at hmay; exact hmay.elim
  | sent seq => rw [hst] at hmay; exact hmay.elim
  | told r t' =>
    rw [hst] at hmay hlearned
    cases (show t = t' from hmay)
    obtain ⟨⟨i, hi, v, y, hsent, hseq⟩, ⟨m, hm, hheard⟩, hsuccess, htable⟩ := hlearned
    have him := sent_before_answer (numbered_opened timeout id) hsent hheard hseq
    refine ⟨me, i, m, r, ⟨him, hm⟩, ⟨v, y, hsent, hseq⟩, hheard.reading, ?_, ids_of_table htable⟩
    have hinquiry : r.requestSeq ∈ inquiries (opened timeout id) σ m :=
      mem_gathered.mpr ⟨i, him, me, _, hsent, by rw [← hseq]; rfl⟩
    simp only [news?, hheard.reading, hsuccess, hheard.expected, hinquiry, and_self, if_true, htable,
      Option.map_some]

/-! ### Who comes first -/

/-- Who has the table stores it when it goes on, whatever the table has become. -/
theorem stores {me : Nat} {r : Response} {t : ThreadTable}
    (hst : stand (opened timeout id) σ n me = .told r t) (hσ : σ n = .task me) :
    (session (opened timeout id) σ (n + 1)).threads = t := by
  have hrests : ¬ counting.rests (stand (opened timeout id) σ n me) := by rw [hst]; exact nofun
  obtain ⟨a, hmay, hown⟩ := (kept_counting timeout id σ n).own hrests
  rw [show counting.place _ = _ from hst] at hmay
  cases a with
  | keepThreads u =>
    cases (show u = t from hmay)
    refine (threads_happen (after (opened timeout id) σ n) (σ n)).trans ?_
    rw [hσ, write?, hown]
    rfl
  | _ => exact hmay.elim

/-- When the session takes an event about a thread, it applies it to the table as it is. -/
theorem applies {e : Event} {b : ThreadBody}
    (hi : input? (after d σ n) (σ n) = some (.event e)) (hb : e.thread? = some b) :
    (session d σ (n + 1)).threads = (session d σ n).threads.apply b := by
  obtain ⟨-, o, hh, hs⟩ := handles_happen hi
  refine (congrArg State.threads hs).trans ((State.threads_handles hh).trans ?_)
  simp only [Input.event?, Option.bind_some, hb]
  rfl

/-- An event is what the session takes next if it is the first in its inbox. -/
theorem next_event {room : Room} {e : Event} :
    room.next.map (·.1) = some (.event e) ↔ room.inbox.head? = some (.event e) := by
  unfold Room.next
  split
  · next hr => simp [hr]
  · next hr => simp [hr]
  · next hr =>
    rw [hr]
    split
    · simp
    · split <;> simp

/-- What waits for the session is not touched when a task goes on. -/
theorem input_task {me : Nat} {e : Event} (hσ : σ n = .task me)
    (hi : input? (after d σ n) (.session : Happening (Threads.Fit (ρ := ρ))) = some (.event e)) :
    input? (after d σ (n + 1)) (.session : Happening (Threads.Fit (ρ := ρ))) = some (.event e) := by
  have hafter : after d σ (n + 1) = (after d σ n).stride me := by rw [after_succ, hσ]; rfl
  have hgoing := (handles_happen hi).1
  have hgoing' : ¬ ((after d σ n).stride me).Over := fun ho =>
    hgoing ((congrArg Status.state (beside_stride (after d σ n) me).status).symm.trans ho)
  have hinbox : ((after d σ n).stride me).room.inbox = (after d σ n).room.inbox :=
    congrArg Prod.fst (mail_stride (after d σ n) me)
  rw [input?, if_neg hgoing, next_event] at hi
  rw [hafter, input?, if_neg hgoing', next_event, hinbox, hi]

/-- **Who comes first**: if a call has its table and an event about a thread is what the session takes
next, then the event counts if the call comes first, and does not if the session does. -/
theorem either {me : Nat} {r : Response} {t : ThreadTable} {e : Event} {b : ThreadBody}
    (hst : stand (opened timeout id) σ n me = .told r t)
    (hi : input? (after (opened timeout id) σ n) (.session : Happening (Threads.Fit (ρ := ρ))) =
      some (.event e))
    (hb : e.thread? = some b) :
    (σ n = .task me → σ (n + 1) = .session →
      (session (opened timeout id) σ (n + 2)).threads = t.apply b) ∧
    (σ n = .session → σ (n + 1) = .task me →
      (session (opened timeout id) σ (n + 2)).threads = t) := by
  refine ⟨fun hfirst hsecond => ?_, fun hfirst hsecond => ?_⟩
  · have hlater := input_task hfirst hi
    rw [← hsecond] at hlater
    rw [applies hlater hb, stores hst hfirst]
  · have hsilent : deed? (after (opened timeout id) σ n) (σ n) = none := by rw [hfirst]; rfl
    have hplace : stand (opened timeout id) σ (n + 1) = stand (opened timeout id) σ n :=
      place_silent hsilent
    exact stores ((congrFun hplace me).trans hst) hsecond

/-! ### When the order is kept -/

/-- All messages that have been read have been applied, and no call is in progress. -/
structure Settled (d : Debugger ρ) (σ : Nat → Happening (Threads.Fit (ρ := ρ))) (n : Nat) : Prop where
  applied : heard d σ n = taken d σ n
  idle : ∀ p ∈ (after d σ n).tasks, bare p.2 = true

theorem threads_opened (timeout : Duration) (id : SessionId) :
    (opened timeout id : Debugger ρ).room.state.threads = {} := by
  rw [opened_eq]
  rfl

/-- **The table is what the messages say in their order** if the last answer is the last that was stored,
and as many events have been read behind it as have been applied after it. -/
theorem agrees (happlied : heard (opened timeout id) σ n = taken (opened timeout id) σ n)
    (hanswer : (latest (writes (opened timeout id) σ n)).1 = (latest (news (opened timeout id) σ n)).1)
    (hbehind : (latest (writes (opened timeout id) σ n)).2.length =
      (latest (news (opened timeout id) σ n)).2.length) :
    (session (opened timeout id) σ n).threads = tableOf (news (opened timeout id) σ n) := by
  rw [threads_after (threads_opened timeout id) σ n]
  refine tableOf_congr ?_ hanswer hbehind
  rw [events_of_writes, events_of_news, happlied]

end Calls

/-! ### Whatever happens -/

/-- What is known of threads, whatever happens. -/
structure Tallied (timeout : Duration) (id : SessionId)
    (σ : Nat → Happening (Threads.Fit (ρ := ρ))) (n : Nat) : Prop where
  /-- The table is what is written to it, one after the other. -/
  table : (session (opened timeout id) σ n).threads = tableOf (writes (opened timeout id) σ n)
  /-- So the known threads are those that have come and have not gone since a table was stored. -/
  known : (session (opened timeout id) σ n).threads.ids =
    (writes (opened timeout id) σ n).foldl know ∅
  /-- The events that are written are those that the session has taken, … -/
  events : (writes (opened timeout id) σ n).filterMap Write.event? =
    (taken (opened timeout id) σ n).filterMap Event.thread?
  /-- … which it takes in the order in which they are read, as long as it listens. -/
  order : (after (opened timeout id) σ n).room.listening = true → heard (opened timeout id) σ n =
    taken (opened timeout id) σ n ++ (after (opened timeout id) σ n).waiting
  /-- A table that is stored is that of an answer to the call that stores it. -/
  stored : ∀ k < n, ∀ t, write? (after (opened timeout id) σ k) (σ k) = some (.answer t) →
    ∃ me i m r, Stored (opened timeout id) σ k me t i m r
  /-- If the last answer is the last that was stored, and has as many events behind it, then the known
  threads are what the messages say in their order. -/
  agrees : heard (opened timeout id) σ n = taken (opened timeout id) σ n →
    (latest (writes (opened timeout id) σ n)).1 = (latest (news (opened timeout id) σ n)).1 →
    (latest (writes (opened timeout id) σ n)).2.length =
      (latest (news (opened timeout id) σ n)).2.length →
    (session (opened timeout id) σ n).threads.ids = (news (opened timeout id) σ n).foldl know ∅
  /-- But nothing keeps an answer and an event in their order: it counts who comes first. -/
  either : ∀ me r t e b, stand (opened timeout id) σ n me = .told r t →
    input? (after (opened timeout id) σ n) (.session : Happening (Threads.Fit (ρ := ρ))) =
      some (.event e) → e.thread? = some b →
    (σ n = .task me → σ (n + 1) = .session →
      (session (opened timeout id) σ (n + 2)).threads = t.apply b) ∧
    (σ n = .session → σ (n + 1) = .task me →
      (session (opened timeout id) σ (n + 2)).threads = t)

/-- **Threads are counted in the order in which they are written**, for any calls of any users in any
order, and whatever the adapter sends. -/
theorem tallied (timeout : Duration) (id : SessionId) (σ : Nat → Happening (Threads.Fit (ρ := ρ)))
    (n : Nat) : Tallied timeout id σ n where
  table := threads_after (threads_opened timeout id) σ n
  known := by rw [threads_after (threads_opened timeout id) σ n, ids_tableOf]
  events := events_of_writes _ σ n
  order := (posted_opened timeout id σ n).order
  stored _ _ _ := stored
  agrees happlied hanswer hbehind := by rw [agrees happlied hanswer hbehind, ids_tableOf]
  either _ _ _ _ _ := either

/-! ### An event that is lost -/

/-- A call asks for the threads, of which the adapter has one. Behind the answer the adapter tells that
another one has started. The session takes the event before the call stores the answer. -/
def outrun (n : Nat) : Happening (Threads.Fit (ρ := Except DebugError ThreadTable)) :=
  ([.call 0 Session.threads fit_threads, .task 3, .task 3, .outside .write rfl, .task 3,
    .outside (.arrive (Frame.frames
      [.response ⟨9, 1, true, "threads", none, some (.obj [("threads", .arr [.obj
        [("id", .int 1), ("name", .str "main")]])])⟩,
      .event ⟨10, "thread", some (.obj [("reason", .str "started"), ("threadId", .int 2)])⟩])) rfl,
    .outside .read rfl, .outside .read rfl, .outside .pass rfl, .session]).getD n (.task 3)

set_option maxRecDepth 20000 in
/-- When all is done, the session knows only the thread of the answer. -/
theorem outrun_seen :
    (after (opened ⟨5000⟩ ⟨1⟩) outrun 13).room.listening = true ∧
    (after (opened ⟨5000⟩ ⟨1⟩) outrun 13).waiting.map (·.event) = [] ∧
    (∀ p ∈ (after (opened ⟨5000⟩ ⟨1⟩) outrun 13).tasks, bare p.2 = true) ∧
    (session (opened ⟨5000⟩ ⟨1⟩) outrun 13).threads = ⟨[(1, "main")]⟩ ∧
    tableOf (news (opened ⟨5000⟩ ⟨1⟩) outrun 13) = ⟨[(1, "main"), (2, "Thread 2")]⟩ := by
  unfold outrun
  simp only [opened_eq, Frame.frames_eq_spelled]
  decide +kernel

/-- **The known threads are not always what the messages say in their order**, even when all of them
have been applied and no call is in progress. -/
theorem out_of_order : ¬ ∀ (timeout : Duration) (id : SessionId)
    (σ : Nat → Happening (Threads.Fit (ρ := Except DebugError ThreadTable))) (n : Nat),
    Settled (opened timeout id) σ n →
    (session (opened timeout id) σ n).threads.ids = (news (opened timeout id) σ n).foldl know ∅ := by
  intro h
  obtain ⟨hlistening, hwaiting, hidle, htable, hnews⟩ := outrun_seen
  have hsettled : Settled (opened ⟨5000⟩ ⟨1⟩) outrun 13 := by
    refine ⟨?_, hidle⟩
    rw [(posted_opened ⟨5000⟩ ⟨1⟩ outrun 13).order hlistening, List.map_eq_nil_iff.mp hwaiting,
      List.append_nil]
  have hids := h ⟨5000⟩ ⟨1⟩ outrun 13 hsettled
  rw [← ids_tableOf, htable, hnews] at hids
  exact absurd hids (by decide)

end Crowd
end DebugHost
