import DebugHost.Proofs.Debugger.Places
import DebugHost.Proofs.Debugger.Touches
import DebugHost.Proofs.Session.Ledger
import DebugHost.Proofs.Session.Quiet

/-! # Breakpoints are replaced one turn after the other

Any number of users replace the breakpoints of files, with any lines, in any order, beside each other
and beside everything else that happens, and the adapter answers what it likes or not at all. The ledger
of the record (`Crowd.ledger`) changes only by fair steps (`Crowd.ledger_step`). So one request is
outstanding at a time, the requests go out in the order in which the record was taken, and the record is
what those turns have made of it of which a success is told (`Crowd.serial`). -/

namespace DebugHost

open DebugHost.Session DebugHost.Script Replacement
open DebugHost.Traffic (requests)

variable {ρ : Type}

/-- The scripts that take the record of breakpoints only for turns. -/
def Replacement.Fit (s : Script ρ) : Prop :=
  s.Adheres protocol (fun p _ => protocol.rests p) protocol.first

namespace Crowd

open Debugger

variable {d : Debugger ρ} {σ : Nat → Happening (Replacement.Fit (ρ := ρ))} {n : Nat}

/-- What has nothing to do with breakpoints is of no matter to the record. -/
theorem idle_of_quiet {a : Action} (h : Quiet a) : Idle a := by
  cases a with
  | lock => exact h
  | unlock s => exact h
  | send command v => intro hc; exact h (by simp [hc])
  | _ => exact trivial

theorem governs_replacing : Governs protocol (Replacement.Fit (ρ := ρ)) where
  rests := rfl
  calls _ h := h
  watches x epoch ticket :=
    (Within.replacing ((within_watchResume x epoch ticket).mono fun _ h =>
      idle_of_quiet (quiet_of_neutral h))).mono
      fun p _ hp => by rw [hp]; rfl

/-! ### The ledger -/

/-- Whether a request replaces breakpoints. -/
def replacesAll (q : Request) : Bool := q.command = "setBreakpoints"

/-- The request in a deed, if it replaces breakpoints. -/
def replaces? (x : Deed) : Option Request := x.request?.filter replacesAll

/-- Whether a deed takes the record. -/
def takesRecord (x : Deed) : Bool :=
  match x.action with
  | .lock => true
  | _ => false

/-- Where the task `me` is with the record of breakpoints when `n` things have happened. -/
def spot (d : Debugger ρ) (σ : Nat → Happening (Replacement.Fit (ρ := ρ))) (n me : Nat) :
    Replacement.Place := protocol.place (deeds d σ n me)

/-- What is known of the record of breakpoints when `n` things have happened. -/
def ledger (d : Debugger ρ) (σ : Nat → Happening (Replacement.Fit (ρ := ρ))) (n : Nat) : Ledger where
  place := spot d σ n
  record := (after d σ n).room.breakpoints
  holder := (after d σ n).room.holder
  turns := gathered d σ (fun m me x => ((spot d σ m me).stand.ended? x).map fun r => (me, r)) n
  takers := gathered d σ (fun _ me x => if takesRecord x then some me else none) n
  sent := gathered d σ (fun _ _ x => replaces? x) n

/-- Who asks for the record has it, or waits for it and changes nothing. -/
theorem lock_cases (d : Debugger ρ) (me : Nat) :
    ((d.attempt me .lock).1.room.breakpoints = d.room.breakpoints) ∧
    ((d.room.holder = none ∨ d.room.holder = some me) ∧
        (d.attempt me .lock).2 = .got d.room.breakpoints ∧
        (d.attempt me .lock).1.room.holder = some me ∨
      (∃ ss deadline, (d.attempt me .lock).2 = .wait ss deadline) ∧
        (d.attempt me .lock).1.room.holder = d.room.holder) := by
  have hgot (room : Room) (hl : d.room.lock me = (room, true)) :
      d.attempt me .lock = ({ d with room := room }, .got room.breakpoints) := by
    simp only [attempt, hl]
  have hwait (room : Room) (hl : d.room.lock me = (room, false)) :
      d.attempt me .lock = ({ d with room := room }, .wait [.lock me] none) := by
    simp only [attempt, hl]
  cases hh : d.room.holder with
  | none =>
    rw [hgot { d.room with holder := some me } (by simp only [Room.lock, hh])]
    exact ⟨rfl, .inl ⟨.inl rfl, rfl, rfl⟩⟩
  | some k =>
    by_cases hk : k = me
    · rw [hgot d.room (by simp only [Room.lock, hh, if_pos hk])]
      exact ⟨rfl, .inl ⟨.inr (by rw [hk]), rfl, by rw [← hk]; exact hh⟩⟩
    · by_cases hq : me ∈ d.room.queue
      · rw [hwait d.room (by simp only [Room.lock, hh, if_neg hk, if_pos hq])]
        exact ⟨rfl, .inr ⟨⟨_, _, rfl⟩, hh⟩⟩
      · rw [hwait { d.room with queue := d.room.queue ++ [me] }
          (by simp only [Room.lock, hh, if_neg hk, if_neg hq])]
        exact ⟨rfl, .inr ⟨⟨_, _, rfl⟩, hh⟩⟩

theorem unlock_record (d : Debugger ρ) (me : Nat) (s : BreakpointSet) :
    (d.attempt me (.unlock s)).1.room.breakpoints = s := by
  have h := unlock_breakpoints d.room s
  simp only [attempt]
  split
  · next hr => rw [hr] at h; exact h
  · next hr => rw [hr] at h; exact h

theorem ended_of_ne {st : Stand} {x : Deed} (hu : ∀ s, x.action ≠ .unlock s) :
    st.ended? x = none := by
  obtain ⟨a, r⟩ := x
  cases a with
  | unlock s => exact absurd rfl (hu s)
  | _ => cases st <;> rfl

theorem taken_of_ne {x : Deed} (hl : x.action ≠ .lock) : takesRecord x = false := by
  obtain ⟨a, r⟩ := x
  cases a with
  | lock => exact absurd rfl hl
  | _ => rfl

theorem replaces_of_ne {command : String} (h : command ≠ "setBreakpoints") {v : Json.Value}
    (r : Except DebugError Exchange) : replaces? ⟨.send command v, r⟩ = none := by
  cases r with
  | error e => rfl
  | ok x => simp [replaces?, replacesAll, Deed.request?, h]

/-- Where nothing is done, the ledger stays as it is. -/
theorem ledger_silent (hx : deed? (after d σ n) (σ n) = none)
    (hrecord : (after d σ (n + 1)).room.breakpoints = (after d σ n).room.breakpoints)
    (hholder : (after d σ (n + 1)).room.holder = (after d σ n).room.holder) :
    ledger d σ (n + 1) = ledger d σ n :=
  Ledger.ext (place_silent hx) hrecord hholder (gathered_silent hx) (gathered_silent hx)
    (gathered_silent hx)

/-- A deed that is of no matter to the record leaves the ledger as it is. -/
theorem ledger_idle {me : Nat} {x : Deed} (hx : deed? (after d σ n) (σ n) = some (me, x))
    (hroom : (after d σ (n + 1)).room = ((after d σ n).attempt me x.action).1.room)
    (hl : x.action ≠ .lock) (hu : ∀ s, x.action ≠ .unlock s) (hq : replaces? x = none)
    (hnext : (spot d σ n me).stand.next x = (spot d σ n me).stand) :
    ledger d σ (n + 1) = ledger d σ n := by
  have hkeeping := keeping_attempt (after d σ n) me hl hu
  rw [← hroom] at hkeeping
  have hplace : protocol.next (spot d σ n me) x = spot d σ n me := by
    simp only [protocol, ended_of_ne hu, hnext, Option.toList_none, List.append_nil]
  refine Ledger.ext ?_ (congrArg Prod.fst hkeeping) (congrArg (·.2.1) hkeeping) ?_ ?_ ?_
  · have h : spot d σ (n + 1) =
        Function.update (spot d σ n) me (protocol.next (spot d σ n me) x) := place_deed hx
    rw [hplace, Function.update_eq_self] at h
    exact h
  · refine (gathered_deed hx).trans ?_
    rw [ended_of_ne hu, Option.map_none, Option.toList_none, List.append_nil]
    rfl
  · refine (gathered_deed hx).trans ?_
    rw [taken_of_ne hl, if_neg Bool.false_ne_true, Option.toList_none, List.append_nil]
    rfl
  · refine (gathered_deed hx).trans ?_
    rw [hq, Option.toList_none, List.append_nil]
    rfl

/-- What a deed of `me` makes of the ledger. -/
theorem ledger_deed {me : Nat} {x : Deed} {past : List (Option Replacement)} {st : Stand}
    {place : Replacement.Place} {record : BreakpointSet} {holder : Option Nat}
    {turns : List (Nat × Option Replacement)} {takers : List Nat} {sent : List Request}
    (hx : deed? (after d σ n) (σ n) = some (me, x)) (hp : spot d σ n me = ⟨past, st⟩)
    (hplace : protocol.next ⟨past, st⟩ x = place)
    (hrecord : (after d σ (n + 1)).room.breakpoints = record)
    (hholder : (after d σ (n + 1)).room.holder = holder)
    (hturns : (ledger d σ n).turns ++ ((st.ended? x).map fun r => (me, r)).toList = turns)
    (htakers : (ledger d σ n).takers ++ (if takesRecord x then some me else none).toList = takers)
    (hsent : (ledger d σ n).sent ++ (replaces? x).toList = sent) :
    ledger d σ (n + 1) =
      ⟨Function.update (ledger d σ n).place me place, record, holder, turns, takers, sent⟩ := by
  refine Ledger.ext ?_ hrecord hholder ?_ ?_ ?_
  · have h : spot d σ (n + 1) =
        Function.update (spot d σ n) me (protocol.next (spot d σ n me) x) := place_deed hx
    rw [hp, hplace] at h
    exact h
  · rw [← hturns]
    refine (gathered_deed hx).trans ?_
    rw [hp]
    rfl
  · exact (gathered_deed hx).trans htakers
  · exact (gathered_deed hx).trans hsent

/-- **The ledger changes by fair steps.** -/
theorem ledger_step (hk : Kept protocol d σ n) : (ledger d σ n).Step (ledger d σ (n + 1)) := by
  cases touches (after d σ n) (σ n) with
  | idle hx hroom hlink =>
    rw [ledger_silent hx (congrArg Room.breakpoints hroom) (congrArg Room.holder hroom)]
    exact .idle
  | session hx hd =>
    have hkeeping := keeping_attend (after d σ n)
    rw [← hd] at hkeeping
    rw [ledger_silent hx (congrArg Prod.fst hkeeping) (congrArg (·.2.1) hkeeping)]
    exact .idle
  | outside m hx hm hd =>
    have hkeeping := (room_outer (after d σ n) hm).2
    rw [← hd] at hkeeping
    rw [ledger_silent hx (congrArg Prod.fst hkeeping) (congrArg (·.2.1) hkeeping)]
    exact .idle
  | waits me t a next ss deadline hx ht hn hwaits hroom hlink =>
    suffices h : (after d σ (n + 1)).room.breakpoints = (after d σ n).room.breakpoints ∧
        (after d σ (n + 1)).room.holder = (after d σ n).room.holder by
      rw [ledger_silent hx h.1 h.2]
      exact .idle
    rw [after_succ, hroom]
    by_cases hl : a = .lock
    · subst hl
      obtain ⟨hrecord, ⟨-, hgot, -⟩ | ⟨-, hholder⟩⟩ := lock_cases (after d σ n) me
      · rw [hgot] at hwaits; cases hwaits
      · exact ⟨hrecord, hholder⟩
    · by_cases hu : ∃ s, a = .unlock s
      · obtain ⟨s, rfl⟩ := hu
        simp only [attempt] at hwaits
        split at hwaits <;> cases hwaits
      · have hkeeping := keeping_attempt (after d σ n) me hl fun s hs => hu ⟨s, hs⟩
        exact ⟨congrArg Prod.fst hkeeping, congrArg (·.2.1) hkeeping⟩
  | acts me x hx hgot hroom hlink =>
    have hmay : (spot d σ n me).stand.may x.action := hk.may hx
    have hidle := ledger_idle (d := d) (σ := σ) hx hroom
    have hroom' : (after d σ (n + 1)).room = ((after d σ n).attempt me x.action).1.room := hroom
    have hkeeping := keeping_attempt (after d σ n) me (a := x.action)
    rw [← hroom'] at hkeeping
    have hrecord (hl : x.action ≠ .lock) (hu : ∀ s, x.action ≠ .unlock s) :
        (after d σ (n + 1)).room.breakpoints = (after d σ n).room.breakpoints :=
      congrArg Prod.fst (hkeeping hl hu)
    have hholder (hl : x.action ≠ .lock) (hu : ∀ s, x.action ≠ .unlock s) :
        (after d σ (n + 1)).room.holder = (after d σ n).room.holder :=
      congrArg (·.2.1) (hkeeping hl hu)
    obtain ⟨a, r⟩ := x
    cases hp : spot d σ n me with
    | mk past st =>
      rw [hp] at hmay hidle
      cases st with
      | apart =>
        cases a with
        | lock =>
          obtain ⟨hsame, ⟨hfree, hfound, hmine⟩ | ⟨⟨ss, deadline, hwait⟩, -⟩⟩ :=
            lock_cases (after d σ n) me
          · cases hfound.symm.trans hgot
            rw [← hroom'] at hsame hmine
            rw [ledger_deed hx hp (next_lock _) hsame hmine (List.append_nil _) rfl
              (List.append_nil _)]
            exact .takes me past hp hfree
          · cases hwait.symm.trans hgot
        | unlock s => exact hmay.elim
        | send command v =>
          rw [hidle (by simp) (by simp) (replaces_of_ne hmay r) (by cases r <;> rfl)]
          exact .idle
        | _ => rw [hidle (by simp) (by simp) rfl rfl]; exact .idle
      | holds found =>
        cases a with
        | lock => exact hmay.elim
        | unlock s =>
          have hs : s = found := hmay
          rw [ledger_deed hx hp (next_leave s r) (by rw [hroom', unlock_record, hs]) rfl rfl
            (List.append_nil _) (List.append_nil _)]
          exact .leaves me past found hp _
        | send command v =>
          obtain ⟨rfl, file, lines, -, rfl⟩ := hmay
          cases r with
          | ok y =>
            rw [ledger_deed hx hp (next_sent _ _ y) (hrecord (by simp) (by simp))
              (hholder (by simp) (by simp)) (List.append_nil _) (List.append_nil _) rfl,
              replaced_replacing]
            exact .sends me past found hp file lines y.seq
          | error e =>
            rw [ledger_deed hx hp (next_unsent _ _ e) (hrecord (by simp) (by simp))
              (hholder (by simp) (by simp)) (List.append_nil _) (List.append_nil _)
              (List.append_nil _), replaced_replacing]
            exact .fails me past found hp file lines e
        | _ => rw [hidle (by simp) (by simp) rfl rfl]; exact .idle
      | asked found file lines seq =>
        cases a with
        | lock => exact hmay.elim
        | unlock s => exact hmay.elim
        | send command v => exact hmay.elim
        | response y =>
          rw [ledger_deed hx hp (next_response file lines seq y r) (hrecord (by simp) (by simp))
            (hholder (by simp) (by simp)) (List.append_nil _) (List.append_nil _)
            (List.append_nil _)]
          exact .hears me past found file lines seq hp _
        | _ => rw [hidle (by simp) (by simp) rfl rfl]; exact .idle
      | told found t =>
        cases a with
        | lock => exact hmay.elim
        | unlock s =>
          have hs : s = commit found t := hmay
          rw [ledger_deed hx hp (next_unlock t s r) (by rw [hroom', unlock_record, hs]) rfl rfl
            (List.append_nil _) (List.append_nil _)]
          exact .ends me past found t hp _
        | send command v => exact hmay.elim
        | _ => rw [hidle (by simp) (by simp) rfl rfl]; exact .idle

/-! ### In any order -/

theorem kept_replacing (timeout : Duration) (id : SessionId)
    (σ : Nat → Happening (Replacement.Fit (ρ := ρ))) (n : Nat) :
    Kept protocol (opened timeout id) σ n := by
  refine kept governs_replacing below_opened (fun p hp => ?_) σ n
  exact bare_opened p hp

theorem fair (timeout : Duration) (id : SessionId) (σ : Nat → Happening (Replacement.Fit (ρ := ρ)))
    (n : Nat) : (ledger (opened timeout id) σ n).Fair := by
  induction n with
  | zero => exact Ledger.fair_empty _ (by rw [after, reached, opened_eq]; rfl) _
  | succ n ih => exact ih.step (ledger_step (kept_replacing timeout id σ n))

/-! ### Numbers -/

/-- Who is told what has become of a request no longer waits for it. -/
theorem response_got {d : Debugger ρ} {me : Nat} {x : Exchange} {r : Except DebugError Response}
    (h : (d.attempt me (.response x)).2 = .got r) :
    x.seq ∉ (d.attempt me (.response x)).1.link.connection.pending := by
  have hsettled : x.seq ∉ (x.settle d.link.connection).pending := by
    simp [Exchange.settle, Connection.forget, Connection.dropAnswer]
  simp only [attempt] at h ⊢
  cases hs : x.standing d.link.connection d.now with
  | waiting => rw [hs] at h; cases h
  | _ => exact hsettled

/-- The requests that were sent are numbered in order, and who waits for an answer is in his turn. -/
structure Counted (c : Connection) (l : Ledger) : Prop where
  rising : l.sent.Pairwise fun q q' => q.seq < q'.seq
  below : ∀ q ∈ l.sent, q.seq < c.nextSeq
  waiting : ∀ q ∈ l.sent, q.seq ∈ c.pending → ∃ me found file lines,
    (l.place me).stand = .asked found file lines q.seq

/-- Who has asked waits until he is told. -/
theorem asked_succ (hk : Kept protocol d σ n) {me : Nat} {found : BreakpointSet} {file : Path}
    {lines : Lines} {seq : Int} (hme : (spot d σ n me).stand = .asked found file lines seq)
    (hp : seq ∈ (after d σ (n + 1)).link.connection.pending) :
    (spot d σ (n + 1) me).stand = .asked found file lines seq := by
  cases hx : deed? (after d σ n) (σ n) with
  | none =>
    have hsame : spot d σ (n + 1) me = spot d σ n me := congrFun (place_silent hx) me
    rw [hsame, hme]
  | some w =>
    obtain ⟨k, x⟩ := w
    have hspot : spot d σ (n + 1) me = Function.update (spot d σ n) k
        (protocol.next (spot d σ n k) x) me := congrFun (place_deed hx) me
    rw [hspot]
    by_cases hkm : me = k
    · subst hkm
      have hmay : (spot d σ n me).stand.may x.action := hk.may hx
      rw [Function.update_self]
      show (spot d σ n me).stand.next x = _
      rw [hme] at hmay ⊢
      obtain ⟨hgot, -, hlink⟩ := attempt_of_deed hx
      obtain ⟨a, r⟩ := x
      cases a with
      | lock => exact hmay.elim
      | unlock s => exact hmay.elim
      | send command v => exact hmay.elim
      | response y =>
        have hseq : y.seq = seq := hmay
        have hgone := response_got hgot
        rw [after_succ, hlink] at hp
        exact absurd (hseq ▸ hp) hgone
      | _ => rfl
    · rw [Function.update_of_ne hkm, hme]

/-- A request that replaces breakpoints is sent in a turn, and has the next number. -/
theorem sent_succ (hk : Kept protocol d σ n) :
    (ledger d σ (n + 1)).sent = (ledger d σ n).sent ∨
    ∃ q, (ledger d σ (n + 1)).sent = (ledger d σ n).sent ++ [q] ∧
      q.seq = (after d σ n).link.connection.nextSeq ∧
      (after d σ (n + 1)).link.connection.nextSeq = (after d σ n).link.connection.nextSeq + 1 ∧
      ∃ me found file lines, (spot d σ (n + 1) me).stand = .asked found file lines q.seq := by
  cases hx : deed? (after d σ n) (σ n) with
  | none => exact .inl (gathered_silent hx)
  | some w =>
    obtain ⟨k, x⟩ := w
    have hsent : (ledger d σ (n + 1)).sent = (ledger d σ n).sent ++ (replaces? x).toList :=
      gathered_deed hx
    cases hq : replaces? x with
    | none => left; rw [hsent, hq, Option.toList_none, List.append_nil]
    | some q =>
      right
      refine ⟨q, by rw [hsent, hq, Option.toList_some], ?_⟩
      obtain ⟨hrequest, hcommand⟩ := Option.filter_eq_some_iff.mp hq
      obtain ⟨hgot, -, hlink⟩ := attempt_of_deed hx
      have hmay : (spot d σ n k).stand.may x.action := hk.may hx
      have hspot : spot d σ (n + 1) k = Function.update (spot d σ n) k
          (protocol.next (spot d σ n k) x) k := congrFun (place_deed hx) k
      rw [Function.update_self] at hspot
      obtain ⟨a, r⟩ := x
      cases a with
      | send command v =>
        cases r with
        | error e => cases hrequest
        | ok y =>
          cases hrequest
          obtain ⟨hseq, hnext⟩ := send_got hgot
          refine ⟨hseq, by rw [after_succ, hlink]; exact hnext, k, ?_⟩
          rw [hspot]
          cases hst : (spot d σ n k).stand with
          | holds found =>
            refine ⟨found, (replaced v).1, (replaced v).2, ?_⟩
            simp only [protocol, hst, Stand.next]
          | apart =>
            rw [hst] at hmay
            exact absurd (of_decide_eq_true hcommand) hmay
          | asked _ _ _ _ => rw [hst] at hmay; exact hmay.elim
          | told _ _ => rw [hst] at hmay; exact hmay.elim
      | _ => cases hrequest

theorem counted_succ (hk : Kept protocol d σ n)
    (h : Counted (after d σ n).link.connection (ledger d σ n)) :
    Counted (after d σ (n + 1)).link.connection (ledger d σ (n + 1)) := by
  have hevolves := evolves (after d σ n) (σ n)
  rw [← after_succ] at hevolves
  have hbelow : ∀ q ∈ (ledger d σ n).sent, q.seq < (after d σ (n + 1)).link.connection.nextSeq :=
    fun q hq => Int.lt_of_lt_of_le (h.below q hq) hevolves.nextSeq_le
  have hwaiting : ∀ q ∈ (ledger d σ n).sent,
      q.seq ∈ (after d σ (n + 1)).link.connection.pending → ∃ me found file lines,
        ((ledger d σ (n + 1)).place me).stand = .asked found file lines q.seq := by
    intro q hq hp
    have hpending : q.seq ∈ (after d σ n).link.connection.pending := by
      by_contra hnot
      exact (hevolves.forgotten ⟨h.below q hq, hnot⟩).2 hp
    obtain ⟨me, found, file, lines, hme⟩ := h.waiting q hq hpending
    exact ⟨me, found, file, lines, asked_succ hk hme hp⟩
  rcases sent_succ hk with hsent | ⟨q, hsent, hseq, hnext, hasked⟩
  · exact ⟨hsent ▸ h.rising, hsent ▸ hbelow, hsent ▸ hwaiting⟩
  · refine ⟨?_, fun p hp => ?_, fun p hp => ?_⟩
    · rw [hsent]
      refine List.pairwise_append.mpr ⟨h.rising, List.pairwise_singleton _ _, fun p hp q' hq' => ?_⟩
      rw [List.mem_singleton.mp hq', hseq]
      exact h.below p hp
    · rw [hsent] at hp
      rcases List.mem_append.mp hp with hp | hp
      · exact hbelow p hp
      · rw [List.mem_singleton.mp hp, hseq, hnext]
        exact Int.lt_add_one_of_le (Int.le_refl _)
    · rw [hsent] at hp
      rcases List.mem_append.mp hp with hp | hp
      · exact hwaiting p hp
      · rw [List.mem_singleton.mp hp]
        exact fun _ => hasked

theorem counted (timeout : Duration) (id : SessionId)
    (σ : Nat → Happening (Replacement.Fit (ρ := ρ))) (n : Nat) :
    Counted (after (opened timeout id) σ n).link.connection (ledger (opened timeout id) σ n) := by
  induction n with
  | zero =>
    exact ⟨List.Pairwise.nil, fun q hq => (by cases hq), fun q hq => (by cases hq)⟩
  | succ n ih => exact counted_succ (kept_replacing timeout id σ n) ih

/-! ### On the wire -/

/-- The requests that go out, those that replace breakpoints in the order of the ledger. -/
theorem conveys_ledger (timeout : Duration) (id : SessionId)
    (σ : Nat → Happening (Replacement.Fit (ρ := ρ))) (n : Nat) :
    ∃ rs, Conveys (after (opened timeout id) σ n).link rs ∧
      rs.filter replacesAll = (ledger (opened timeout id) σ n).sent := by
  refine conveys_gathered (fun q kind hcommand => ?_) (conveys_opened timeout id) σ n
  rw [replacesAll, hcommand]
  cases kind <;> decide

/-! ### Turn after turn -/

/-- Every request says all lines of its file, in rising order. -/
theorem lines_of_sent {timeout : Duration} {id : SessionId}
    {σ : Nat → Happening (Replacement.Fit (ρ := ρ))} {q : Request}
    (hq : q ∈ (ledger (opened timeout id) σ n).sent) : q.command = "setBreakpoints" ∧
      ∃ (file : Path) (lines : Lines), lines.Rising ∧ q.arguments = replacing file lines := by
  obtain ⟨m, -, me, x, hx, hq⟩ := mem_gathered.mp hq
  obtain ⟨hrequest, hcommand⟩ := Option.filter_eq_some_iff.mp hq
  have hmay : (spot (opened timeout id) σ m me).stand.may x.action :=
    (kept_replacing timeout id σ m).may hx
  refine ⟨of_decide_eq_true hcommand, ?_⟩
  obtain ⟨a, r⟩ := x
  cases a with
  | send command v =>
    cases r with
    | error e => cases hrequest
    | ok y =>
      cases hrequest
      cases hst : (spot (opened timeout id) σ m me).stand with
      | holds found => rw [hst] at hmay; exact hmay.2
      | apart => rw [hst] at hmay; exact absurd (of_decide_eq_true hcommand) hmay
      | asked _ _ _ _ => rw [hst] at hmay; exact hmay.elim
      | told _ _ => rw [hst] at hmay; exact hmay.elim
  | _ => cases hrequest

/-- A call that may replace breakpoints has lines in rising order. -/
theorem rising_of_fit {f : Except DebugError Lines → ρ} {path : Path} {lines : Lines}
    (h : Replacement.Fit (f <$> setBreakpoints path lines)) : lines.Rising := by
  obtain ⟨-, file, lines', hlines, heq⟩ := ((h.2 ({} : Status)).2 ({} : BreakpointSet)).1
  have hargs : replacing path lines = replacing file lines' :=
    (written_setBreakpoints path lines).symm.trans heq
  have hsame := congrArg (fun v => (replaced v).2) hargs
  simp only [replaced_replacing] at hsame
  exact hsame ▸ hlines

/-- The turns of the call that begins in `c`. -/
def turnsOf (d : Debugger ρ) (σ : Nat → Happening (Replacement.Fit (ρ := ρ))) (n c : Nat) :
    List (Option Replacement) :=
  (ledger d σ n).turns.filterMap fun t => if t.1 = caller d σ c then some t.2 else none

/-- Breakpoints are replaced one turn after the other, and only by those turns of which a success is
told. -/
structure Serial (d : Debugger ρ) (σ : Nat → Happening (Replacement.Fit (ρ := ρ))) (n : Nat) :
    Prop where
  /-- No two tasks have the record. -/
  alone : ∀ me me', (spot d σ n me).stand ≠ .apart → (spot d σ n me').stand ≠ .apart → me = me'
  /-- Of the requests that were sent one at most is waited for. -/
  outstanding : ((ledger d σ n).sent.filter fun q =>
    q.seq ∈ (after d σ n).link.connection.pending).length ≤ 1
  /-- The turns are had in the order in which the record was taken. -/
  turns : (ledger d σ n).takers =
    (ledger d σ n).turns.map (·.1) ++ (ledger d σ n).current.toList
  /-- So are their requests sent. -/
  sent : (ledger d σ n).sent =
    (ledger d σ n).turns.filterMap (fun t => t.2.bind Replacement.sent?) ++
      ((ledger d σ n).current.bind fun me => (spot d σ n me).stand.sent?).toList
  /-- In this order they are written. -/
  written : (requests (after d σ n).link.written).filter replacesAll <+: (ledger d σ n).sent
  /-- Each says all lines of its file, in order. -/
  lines : ∀ q ∈ (ledger d σ n).sent, q.command = "setBreakpoints" ∧
    ∃ (file : Path) (lines : Lines), lines.Rising ∧ q.arguments = replacing file lines
  /-- The record is what the turns have made of it, one after the other. -/
  record : (after d σ n).room.breakpoints =
    ((ledger d σ n).turns.filterMap (·.2)).foldl commit {}
  /-- A turn of which an error is told leaves the whole record as it was. -/
  failures : ∀ me t e, (me, some t) ∈ (ledger d σ n).turns → t.result = .error e →
    ∀ s, commit s t = s
  /-- One of which a success is told puts its file into the record, with the adapter's answer. -/
  successes : ∀ me t verified, (me, some t) ∈ (ledger d σ n).turns → t.result = .ok verified →
    ∃ answer, t.answer = .ok answer ∧
      ∀ s, s.commit t.file t.lines answer.breakpoints = (verified, commit s t)
  /-- A call that is over has had its turn, of which it tells, or the session had ended before. -/
  results : ∀ c id (f : Except DebugError Lines → ρ) path lines fits r,
    σ c = .call id (f <$> setBreakpoints path lines) fits → Returned d σ c n r →
      (r = f (.error .sessionTerminated) ∧ turnsOf d σ n c = []) ∨
      ∃ t, turnsOf d σ n c = [some t] ∧ t.file = path ∧ t.lines = lines ∧ r = f t.result

/-- **Breakpoints are replaced one turn after the other**: for any calls of any users in any order, and
whatever the adapter answers. -/
theorem serial (timeout : Duration) (id : SessionId)
    (σ : Nat → Happening (Replacement.Fit (ρ := ρ))) (n : Nat) :
    Serial (opened timeout id) σ n := by
  have hfair := fair timeout id σ n
  have hcounted := counted timeout id σ n
  have htaken {me : Nat} (h : (spot (opened timeout id) σ n me).stand ≠ .apart) :
      (ledger (opened timeout id) σ n).current = some me := by
    refine hfair.current ?_
    show (spot (opened timeout id) σ n me).stand.taken = true
    cases hst : (spot (opened timeout id) σ n me).stand with
    | apart => exact absurd hst h
    | _ => rfl
  refine ⟨fun me me' h h' => ?_, ?_, hfair.takers, hfair.sent, ?_, fun q => lines_of_sent,
    hfair.record, fun _ t e _ he => commit_of_error he, fun _ t v _ hv => commit_of_ok hv,
    fun c id' f path lines fits r hc hr => ?_⟩
  · exact Option.some.inj ((htaken h).symm.trans (htaken h'))
  · -- all that are waited for have the number of the one request of the current turn
    have hone : ∀ q q', q ∈ (ledger (opened timeout id) σ n).sent →
        q' ∈ (ledger (opened timeout id) σ n).sent →
        q.seq ∈ (after (opened timeout id) σ n).link.connection.pending →
        q'.seq ∈ (after (opened timeout id) σ n).link.connection.pending → q.seq = q'.seq := by
      intro q q' hq hq' hp hp'
      obtain ⟨me, found, file, lines, hme⟩ := hcounted.waiting q hq hp
      obtain ⟨me', found', file', lines', hme'⟩ := hcounted.waiting q' hq' hp'
      replace hme : (spot (opened timeout id) σ n me).stand = _ := hme
      replace hme' : (spot (opened timeout id) σ n me').stand = _ := hme'
      have hsame : me = me' := Option.some.inj
        ((htaken (by rw [hme]; simp)).symm.trans (htaken (by rw [hme']; simp)))
      have hasked := (congrArg Place.stand (congrArg (spot (opened timeout id) σ n) hsame)).symm
      rw [hme, hme'] at hasked
      exact (Stand.asked.inj hasked).2.2.2.symm
    have hrising := hcounted.rising.filter fun q =>
      decide (q.seq ∈ (after (opened timeout id) σ n).link.connection.pending)
    generalize hl : (ledger (opened timeout id) σ n).sent.filter (fun q =>
      decide (q.seq ∈ (after (opened timeout id) σ n).link.connection.pending)) = l at hrising ⊢
    have hmem : ∀ q ∈ l, q ∈ (ledger (opened timeout id) σ n).sent ∧
        q.seq ∈ (after (opened timeout id) σ n).link.connection.pending := by
      intro q hq
      rw [← hl] at hq
      exact ⟨(List.mem_filter.mp hq).1, of_decide_eq_true (List.mem_filter.mp hq).2⟩
    match l, hrising, hmem with
    | [], _, _ => exact Nat.zero_le _
    | [_], _, _ => exact Nat.le_refl _
    | q :: q' :: rest, hrising, hmem =>
      have hlt := (List.pairwise_cons.mp hrising).1 q' (List.mem_cons_self ..)
      obtain ⟨hq, hp⟩ := hmem q (List.mem_cons_self ..)
      obtain ⟨hq', hp'⟩ := hmem q' (List.mem_cons_of_mem _ (List.mem_cons_self ..))
      rw [hone q q' hq hq' hp hp'] at hlt
      exact absurd hlt (Int.lt_irrefl _)
  · obtain ⟨rs, hrs, hfilter⟩ := conveys_ledger timeout id σ n
    rw [← hfilter]
    exact hrs.written.filter _
  · have hadheres : (f <$> setBreakpoints path lines).Adheres protocol
        (fun p r => ∃ told, r = f told ∧ Replaced [] path lines told p) protocol.first :=
      Adheres.map ((adheres_setBreakpoints [] path (rising_of_fit fits)).mono
        fun p told hp => ⟨told, rfl, hp⟩)
    obtain ⟨told, rfl, hreplaced⟩ := goal_of_returned below_opened hc hadheres hr
    have hpast : (spot (opened timeout id) σ n (caller (opened timeout id) σ c)).past =
        turnsOf (opened timeout id) σ n c := hfair.past _
    replace hreplaced : Replaced [] path lines told
      (spot (opened timeout id) σ n (caller (opened timeout id) σ c)) := hreplaced
    generalize spot (opened timeout id) σ n (caller (opened timeout id) σ c) = p at hpast hreplaced
    cases hreplaced with
    | refused error => exact .inl ⟨congrArg f error, hpast.symm⟩
    | turn t file asked result => exact .inr ⟨t, hpast.symm, file, asked, congrArg f result⟩

end Crowd
end DebugHost
