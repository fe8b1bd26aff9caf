import DebugHost.Proofs.Debugger.Places
import DebugHost.Proofs.Debugger.Touches
import DebugHost.Proofs.Inspection.Slots

/-! # Questions are shared

Any number of users look at the paused program, beside each other and beside everything else that
happens, and the adapter answers what it likes or not at all. What is known of the slots changes only by
sound steps (`Crowd.slots_step`). So for each question of a generation one fetch at most is in flight,
there are no more of them than have failed and one, all who see the view see the same, and it is that of
the adapter's answer to a request for just this question (`Crowd.shared`). -/

namespace DebugHost

open DebugHost.Session DebugHost.Script DebugHost.Inspection

variable {ρ : Type}

/-- The scripts that look at the paused program only step by step. -/
def Inspection.Fit (s : Script ρ) : Prop :=
  s.Adheres asking (fun p _ => asking.rests p) asking.first

/-- The deed of the task `me` with which a fetch begins or ends. -/
def Inspection.Stand.event? (me : Nat) : Stand → Deed → Option Inspection.Event
  | .joined l, ⟨.acquire _, none⟩ => some (.begins me l)
  | .told f, ⟨.deliver .., _⟩ => some (.ends me f)
  | _, _ => none

/-- For what a slot is made by a deed. -/
def Inspection.Tree.madeBy (t : Tree) : Deed → Option Subject
  | ⟨.join _, .ok k⟩ => t.makes? k
  | _ => none

namespace Crowd

open Debugger

/-! ### What a session does to the tree -/

/-- The session leaves the tree as it is, or a new generation begins. -/
theorem tree_attend (d : Debugger ρ) :
    d.attend.room.state.tree = d.room.state.tree ∨
    d.attend.room.state.tree.slots = d.room.state.tree.slots ∧
      d.attend.room.state.tree.cache = [] ∧
      d.room.state.tree.generation.number < d.attend.room.state.tree.generation.number := by
  cases attends d with
  | leaves ho hd => rw [hd, (leave_keeps d).1]; exact .inl rfl
  | rests ho hn hd => rw [hd]; exact .inl rfl
  | takes i room ho hn hd =>
    obtain ⟨o, hi, hs, -⟩ := handles_next hn ho
    rw [← hd] at hs
    have hnote := (State.noted_note d.room.state i).tree
    cases hi with
    | stays _ hstate => rw [hs, hstate, hnote]; exact .inl rfl
    | enters st _ _ _ hstate =>
      rw [hs, hstate, State.enter, State.publish, hnote]
      exact .inr ⟨rfl, rfl, Nat.lt_succ_self _⟩
    | resumes kind thread ticket _ _ _ hstate =>
      rw [hs, hstate]
      exact .inr ⟨rfl, rfl, Nat.lt_succ_self _⟩
    | ends cause _ _ hstate =>
      rw [hs, hstate, State.finish, State.publish, hnote]
      exact .inr ⟨rfl, rfl, Nat.lt_succ_self _⟩

/-- Who comes to a slot is told how it stands there. -/
theorem attempt_acquire (d : Debugger ρ) (me : Nat) (k : Ticket) :
    (d.attempt me (.acquire k)).1.room.state.tree = (d.room.state.tree.acquire me k).2 ∧
    (d.attempt me (.acquire k)).2 = match (d.room.state.tree.acquire me k).1 with
      | .known v => .got (some v)
      | .mine => .got none
      | .waiting => .wait [.slot me] none := by
  simp only [attempt]
  rcases d.room.state.tree.acquire me k with ⟨s, t⟩
  cases s <;> exact ⟨rfl, rfl⟩

/-- Who brings an answer to a slot is told what it amounts to. -/
theorem attempt_deliver (d : Debugger ρ) (me : Nat) (k : Ticket) (r : Except DebugError Answer) :
    (d.attempt me (.deliver k r)).1.room.state.tree = (d.room.state.tree.deliver k r).2.1 ∧
    (d.attempt me (.deliver k r)).2 = .got (d.room.state.tree.deliver k r).1 := by
  simp only [attempt]
  rcases d.room.state.tree.deliver k r with ⟨v, t, woken⟩
  exact ⟨congrArg (·.state.tree) (foldl_signal (d.withTree t) .slot woken).1, trivial⟩

variable {d : Debugger ρ} {σ : Nat → Happening (Inspection.Fit (ρ := ρ))} {n : Nat}

theorem governs_asking : Governs asking (Inspection.Fit (ρ := ρ)) where
  rests := rfl
  calls _ h := h
  watches x epoch ticket :=
    (Within.asking ((within_watchResume x epoch ticket).mono fun _ h =>
      idle_of_quiet (quiet_of_neutral h))).mono
      fun p _ hp => by rw [hp]; rfl

/-! ### What is known of the slots -/

/-- Where the task `me` is with its looks when `n` things have happened. -/
def seat (d : Debugger ρ) (σ : Nat → Happening (Inspection.Fit (ρ := ρ))) (n me : Nat) :
    Inspection.Place := asking.place (deeds d σ n me)

/-- What is known of the slots when `n` things have happened. -/
def slots (d : Debugger ρ) (σ : Nat → Happening (Inspection.Fit (ρ := ρ))) (n : Nat) : Slots where
  place := seat d σ n
  tree := (after d σ n).room.state.tree
  made := gathered d σ (fun m _ x => (after d σ m).room.state.tree.madeBy x) n
  history := gathered d σ (fun m me x => (seat d σ m me).stand.event? me x) n

/-- Where nothing is done, only the tree can change. -/
theorem slots_silent (hx : deed? (after d σ n) (σ n) = none) :
    slots d σ (n + 1) = { slots d σ n with tree := (after d σ (n + 1)).room.state.tree } := by
  have hplace : seat d σ (n + 1) = seat d σ n := place_silent hx
  simp only [slots, hplace, gathered_silent hx]

/-- What a deed of `me` makes of it. -/
theorem slots_deed {me : Nat} {x : Deed} {past : List Visit} {st : Inspection.Stand}
    {p : Inspection.Place} {t : Tree} {made : List Subject} {history : List Inspection.Event}
    (hx : deed? (after d σ n) (σ n) = some (me, x)) (hp : seat d σ n me = ⟨past, st⟩)
    (hplace : asking.next ⟨past, st⟩ x = p)
    (htree : (after d σ (n + 1)).room.state.tree = t)
    (hmade : (slots d σ n).made ++ ((after d σ n).room.state.tree.madeBy x).toList = made)
    (hhistory : (slots d σ n).history ++ (st.event? me x).toList = history) :
    slots d σ (n + 1) = ⟨Function.update (slots d σ n).place me p, t, made, history⟩ := by
  have hseat : seat d σ (n + 1) =
      Function.update (seat d σ n) me (asking.next (seat d σ n me) x) := place_deed hx
  rw [hp, hplace] at hseat
  have hevent : st = (seat d σ n me).stand := by rw [hp]
  subst hevent
  rw [← hmade, ← hhistory, ← htree]
  simp only [slots, hseat, gathered_deed hx]

/-- An action that neither makes slots nor begins or ends a fetch, and leaves its task where it is. -/
theorem slots_idle {me : Nat} {x : Deed} {past : List Visit} {st : Inspection.Stand}
    (hx : deed? (after d σ n) (σ n) = some (me, x)) (hp : seat d σ n me = ⟨past, st⟩)
    (hroom : (after d σ (n + 1)).room = ((after d σ n).attempt me x.action).1.room)
    (ha : inspects x.action = false) (hplace : asking.next ⟨past, st⟩ x = ⟨past, st⟩) :
    slots d σ (n + 1) = slots d σ n := by
  have htree : (after d σ (n + 1)).room.state.tree = (after d σ n).room.state.tree := by
    rw [hroom]
    exact tree_attempt _ me ha
  have hmade : (after d σ n).room.state.tree.madeBy x = none := by
    obtain ⟨a, r⟩ := x
    cases a <;> first | rfl | cases ha
  have hevent : st.event? me x = none := by
    obtain ⟨a, r⟩ := x
    cases a <;> first | (cases st <;> rfl) | cases ha
  have hsame : Function.update (slots d σ n).place me ⟨past, st⟩ = (slots d σ n).place := by
    rw [← hp]
    exact Function.update_eq_self _ _
  rw [slots_deed hx hp hplace htree rfl rfl, hmade, hevent, hsame]
  simp only [Option.toList_none, List.append_nil]
  rfl

/-- **What is known of the slots changes by sound steps.** -/
theorem slots_step (hk : Kept asking d σ n) : (slots d σ n).Step (slots d σ (n + 1)) := by
  have hsilent (hx : deed? (after d σ n) (σ n) = none)
      (ht : (after d σ (n + 1)).room.state.tree = (after d σ n).room.state.tree) :
      (slots d σ n).Step (slots d σ (n + 1)) := by
    rw [slots_silent hx, ht]
    exact .idle
  cases touches (after d σ n) (σ n) with
  | idle hx hroom hlink => exact hsilent hx (congrArg (·.state.tree) hroom)
  | outside m hx hm hd =>
    refine hsilent hx ?_
    rw [after_succ, hd]
    exact congrArg State.tree (room_outer (after d σ n) hm).1
  | session hx hd =>
    have htree := tree_attend (after d σ n)
    rw [← hd] at htree
    rcases htree with htree | ⟨hslots, hcache, hrises⟩
    · exact hsilent hx htree
    · rw [slots_silent hx]
      exact .renews _ hslots hcache hrises
  | waits me t a next ss deadline hx ht hn hwaits hroom hlink =>
    have hmay : (seat d σ n me).stand.may a := ((hk.tasks me t ht).next hn).1
    have htree : (after d σ (n + 1)).room.state.tree =
        ((after d σ n).attempt me a).1.room.state.tree := congrArg (·.state.tree) hroom
    by_cases ha : inspects a = false
    · exact hsilent hx (htree.trans (tree_attempt _ me ha))
    · cases a with
      | join q => cases hwaits
      | deliver k r => cases hwaits
      | acquire k =>
        -- only who has taken a slot comes to it, and waits if another has it
        obtain ⟨hacquire, hstanding⟩ := attempt_acquire (after d σ n) me k
        cases hp : seat d σ n me with
        | mk past st =>
          rw [hp] at hmay
          cases st with
          | joined l =>
            cases (show k = l.ticket from hmay)
            rcases (after d σ n).room.state.tree.acquire_cases me l.ticket with
              ⟨v, -, hknown⟩ | ⟨hv, ⟨-, hmine, -⟩ | ⟨h, hne, hh, -, hputs⟩⟩
            · rw [hstanding, hknown] at hwaits; cases hwaits
            · rw [hstanding, hmine] at hwaits; cases hwaits
            · rw [slots_silent hx, htree, hacquire]
              exact .waits me past l hp h hne hv hh _ hputs
          | _ => exact hmay.elim
      | _ => exact absurd rfl ha
  | acts me x hx hgot hroom hlink =>
    have hmay : (seat d σ n me).stand.may x.action := hk.may hx
    have htree : (after d σ (n + 1)).room.state.tree =
        ((after d σ n).attempt me x.action).1.room.state.tree := congrArg (·.state.tree) hroom
    obtain ⟨a, r⟩ := x
    cases hp : seat d σ n me with
    | mk past st =>
      rw [hp] at hmay
      have hidle (ha : inspects a = false)
          (hplace : asking.next ⟨past, st⟩ ⟨a, r⟩ = ⟨past, st⟩) :
          (slots d σ n).Step (slots d σ (n + 1)) := by
        rw [slots_idle hx hp hroom ha hplace]
        exact .idle
      -- where the tree stays as it is
      have hsame (ha : inspects a = false) :
          (after d σ (n + 1)).room.state.tree = (slots d σ n).tree :=
        htree.trans (tree_attempt _ me ha)
      cases st with
      | apart =>
        cases a with
        | join q =>
          cases hj : (after d σ n).room.state.tree.join q with
          | mk r' t =>
            simp only [attempt, hj] at hgot htree
            cases hgot
            cases r with
            | error e =>
              obtain ⟨hrefuses, rfl⟩ := Tree.join_error hj
              rw [slots_deed hx hp (next_refused q e) htree (List.append_nil _) (List.append_nil _)]
              exact .refused me past hp q e hrefuses
            | ok k =>
              rw [slots_deed hx hp (next_joined q k) htree rfl (List.append_nil _)]
              exact .joins me past hp q k t hj
        | acquire k => exact hmay.elim
        | deliver k r => exact hmay.elim
        | confirm g v => exact hmay.elim
        | send command v => exact hidle rfl (next_idle (a := .send command v) hmay r)
        | _ => exact hidle rfl (next_idle (by exact trivial) r)
      | joined l =>
        cases a with
        | acquire k =>
          cases (show k = l.ticket from hmay)
          obtain ⟨hacquire, hstanding⟩ := attempt_acquire (after d σ n) me l.ticket
          rw [hacquire] at htree
          rw [hstanding] at hgot
          rcases (after d σ n).room.state.tree.acquire_cases me l.ticket with
            ⟨v, hv, hknown⟩ | ⟨hv, ⟨hfree, hmine, hputs⟩ | ⟨h, -, -, hwaiting, -⟩⟩
          · rw [hknown] at hgot htree
            cases hgot
            rw [slots_deed hx hp (next_known l l.ticket v) htree (List.append_nil _)
              (List.append_nil _)]
            exact .finds me past l hp v hv
          · rw [hmine] at hgot
            cases hgot
            rw [slots_deed hx hp (next_mine l l.ticket) htree (List.append_nil _) rfl]
            exact .asks me past l hp hv hfree _ hputs
          · rw [hwaiting] at hgot
            cases hgot
        | _ => exact hmay.elim
      | asks l =>
        cases a with
        | send command v =>
          cases r with
          | error e =>
            rw [slots_deed hx hp (next_unsent l command v e) (hsame rfl) (List.append_nil _)
              (List.append_nil _)]
            exact .goesOn me past _ _ hp l rfl rfl
          | ok y =>
            rw [slots_deed hx hp (next_sent l command v y) (hsame rfl) (List.append_nil _)
              (List.append_nil _)]
            exact .goesOn me past _ _ hp l rfl rfl
        | _ => exact hmay.elim
      | sent l seq =>
        cases a with
        | limit => exact hidle rfl (next_limit l seq r)
        | response y =>
          rw [slots_deed hx hp (next_response l seq y r) (hsame rfl) (List.append_nil _)
            (List.append_nil _)]
          exact .goesOn me past _ _ hp l rfl rfl
        | _ => exact hmay.elim
      | told f =>
        cases a with
        | deliver k answer =>
          obtain ⟨rfl, rfl⟩ : k = f.look.ticket ∧ answer = f.outcome := hmay
          obtain ⟨hdeliver, htold⟩ := attempt_deliver (after d σ n) me f.look.ticket f.outcome
          rw [hdeliver] at htree
          rw [htold] at hgot
          cases ho : f.outcome with
          | error e =>
            rw [ho] at hx hgot htree
            cases hgot
            rw [slots_deed hx hp (next_failed f f.look.ticket _ e) htree (List.append_nil _) rfl]
            exact .fails me past f hp e ho _ (Tree.puts_setSlot _ _ _)
          | ok answer =>
            rw [ho] at hx hgot htree
            cases hgot
            rw [slots_deed hx hp (next_filled f f.look.ticket _ _) htree (List.append_nil _) rfl]
            exact .fills me past f hp answer ho _ (Tree.puts_setSlot _ _ _)
        | _ => exact hmay.elim
      | checks l v =>
        cases a with
        | confirm g w =>
          obtain ⟨rfl, rfl⟩ : g = l.ticket.generation ∧ w = v := hmay
          cases hgot
          rw [slots_deed hx hp (next_checked l w w l.ticket.generation _) (hsame rfl)
            (List.append_nil _) (List.append_nil _)]
          refine .checks me past l w hp _ ?_
          cases hc : (after d σ n).room.state.tree.confirm l.ticket.generation w with
          | ok v =>
            obtain ⟨-, -, rfl⟩ := Tree.confirm_ok hc
            exact .inl hc
          | error e => exact .inr ⟨e, hc, Tree.confirm_error hc⟩
        | _ => exact hmay.elim

/-! ### In any order -/

theorem kept_asking (timeout : Duration) (id : SessionId)
    (σ : Nat → Happening (Inspection.Fit (ρ := ρ))) (n : Nat) :
    Kept asking (opened timeout id) σ n := by
  refine kept governs_asking below_opened (fun p hp => ?_) σ n
  exact bare_opened p hp

theorem sound (timeout : Duration) (id : SessionId)
    (σ : Nat → Happening (Inspection.Fit (ρ := ρ))) (n : Nat) :
    (slots (opened timeout id) σ n).Sound := by
  induction n with
  | zero =>
    have hempty : slots (opened timeout id) σ 0 = ⟨fun _ => ⟨[], .apart⟩, {}, [], []⟩ := by
      simp only [slots, after, reached, opened_eq]
      rfl
    rw [hempty]
    exact Slots.sound_empty
  | succ n ih => exact ih.step (slots_step (kept_asking timeout id σ n))

/-! ### Questions and answers on the wire -/

/-- The task `me` has sent the request `seq` for its look `l`. -/
def Sent (d : Debugger ρ) (σ : Nat → Happening (Inspection.Fit (ρ := ρ))) (n me : Nat) (l : Look)
    (seq : Int) : Prop :=
  ∃ m < n, (seat d σ m me).stand = .asks l ∧ ∃ y : Exchange, y.seq = seq ∧
    deed? (after d σ m) (σ m) =
      some (me, ⟨.send l.ticket.key.command l.ticket.key.arguments, .ok y⟩)

/-- What the task `me` was told of its question the adapter has answered to its request. -/
structure Fetched (d : Debugger ρ) (σ : Nat → Happening (Inspection.Fit (ρ := ρ))) (n me : Nat)
    (f : Fetch) : Prop where
  sent : ∀ seq, f.request = some seq → Sent d σ n me f.look seq
  heard : ∀ r, f.told = .ok r → f.request = some r.requestSeq ∧ r.success = true ∧
    ∃ m < n, Heard (after d σ m) (σ m) r

/-- What a task that asks has done so far. -/
def Asked (d : Debugger ρ) (σ : Nat → Happening (Inspection.Fit (ρ := ρ))) (n me : Nat) :
    Inspection.Stand → Prop
  | .sent l seq => Sent d σ n me l seq
  | .told f => Fetched d σ n me f
  | _ => True

theorem Sent.mono {m me : Nat} {l : Look} {seq : Int} (h : Sent d σ m me l seq) (hmn : m ≤ n) :
    Sent d σ n me l seq := by
  obtain ⟨j, hj, h⟩ := h
  exact ⟨j, Nat.lt_of_lt_of_le hj hmn, h⟩

theorem Fetched.mono {m me : Nat} {f : Fetch} (h : Fetched d σ m me f) (hmn : m ≤ n) :
    Fetched d σ n me f where
  sent seq hseq := (h.sent seq hseq).mono hmn
  heard r hr := by
    obtain ⟨hseq, hs, j, hj, hheard⟩ := h.heard r hr
    exact ⟨hseq, hs, j, Nat.lt_of_lt_of_le hj hmn, hheard⟩

theorem Asked.mono {m me : Nat} {st : Inspection.Stand} (h : Asked d σ m me st) (hmn : m ≤ n) :
    Asked d σ n me st := by
  cases st with
  | sent l seq => exact Sent.mono h hmn
  | told f => exact Fetched.mono h hmn
  | _ => exact trivial

/-- **Who asks has sent the request for its question**, and is told what the adapter answers to it. -/
theorem asked (timeout : Duration) (id : SessionId)
    (σ : Nat → Happening (Inspection.Fit (ρ := ρ))) (n me : Nat) :
    Asked (opened timeout id) σ n me (seat (opened timeout id) σ n me).stand := by
  induction n with
  | zero => exact trivial
  | succ n ih =>
    have hstays (h : seat (opened timeout id) σ (n + 1) me = seat (opened timeout id) σ n me) :
        Asked (opened timeout id) σ (n + 1) me (seat (opened timeout id) σ (n + 1) me).stand := by
      rw [h]
      exact ih.mono (Nat.le_succ n)
    cases hx : deed? (after (opened timeout id) σ n) (σ n) with
    | none =>
      have hplace : seat (opened timeout id) σ (n + 1) = seat (opened timeout id) σ n :=
        place_silent hx
      exact hstays (congrFun hplace me)
    | some w =>
      obtain ⟨k, x⟩ := w
      have hplace : seat (opened timeout id) σ (n + 1) =
          Function.update (seat (opened timeout id) σ n) k
            (asking.next (seat (opened timeout id) σ n k) x) := place_deed hx
      by_cases hkm : me = k
      · subst hkm
        have hmay : (seat (opened timeout id) σ n me).stand.may x.action :=
          (kept_asking timeout id σ n).may hx
        have hgot := (attempt_of_deed hx).1
        rw [hplace, Function.update_self]
        show Asked _ _ _ _ ((seat (opened timeout id) σ n me).stand.next x)
        generalize hst : (seat (opened timeout id) σ n me).stand = st at ih hmay
        obtain ⟨a, r⟩ := x
        cases st with
        | apart => cases a <;> first | exact trivial | (cases r <;> exact trivial)
        | joined l => cases a <;> first | exact hmay.elim | (cases r <;> exact trivial)
        | checks l v => cases a <;> first | exact hmay.elim | exact trivial
        | asks l =>
          cases a with
          | send command v =>
            obtain ⟨rfl, rfl⟩ : command = _ ∧ v = _ := hmay
            cases r with
            | error e => exact ⟨fun seq hseq => (by cases hseq), fun r hr => (by cases hr)⟩
            | ok y => exact ⟨n, Nat.lt_succ_self n, hst, y, rfl, hx⟩
          | _ => exact hmay.elim
        | sent l seq =>
          cases a with
          | limit => exact ih.mono (Nat.le_succ n)
          | response y =>
            cases (show y.seq = seq from hmay)
            refine ⟨fun seq hseq => ?_, fun r' hr => ?_⟩
            · cases hseq
              exact Sent.mono ih (Nat.le_succ n)
            · cases (show r = .ok r' from hr)
              obtain ⟨hseq, hsuccess, m, hm, hheard⟩ := heard_of_told (by rw [opened_eq]; rfl) hgot
              exact ⟨congrArg some hseq.symm, hsuccess, m, Nat.lt_succ_of_lt hm, hheard⟩
          | _ => exact hmay.elim
        | told f =>
          cases a with
          | deliver k answer => cases r <;> exact trivial
          | _ => exact hmay.elim
      · exact hstays (by rw [hplace, Function.update_of_ne hkm])

/-- The fetches for one question in one generation, as they have begun and ended. -/
def fetches (d : Debugger ρ) (σ : Nat → Happening (Inspection.Fit (ρ := ρ))) (n : Nat) (o : Subject) :
    List Inspection.Event := (slots d σ n).course o

theorem fetched {timeout : Duration} {id : SessionId}
    {σ : Nat → Happening (Inspection.Fit (ρ := ρ))} {me : Nat} {f : Fetch} {o : Subject}
    (hf : .ends me f ∈ fetches (opened timeout id) σ n o) :
    Fetched (opened timeout id) σ n me f := by
  obtain ⟨hf, -⟩ := List.mem_filter.mp hf
  obtain ⟨m, hm, k, x, hx, hevent⟩ := mem_gathered.mp hf
  have hasked := asked timeout id σ m k
  obtain ⟨a, r⟩ := x
  cases hst : (seat (opened timeout id) σ m k).stand with
  | told f' =>
    rw [hst] at hevent hasked
    cases a with
    | deliver t answer =>
      cases hevent
      exact Fetched.mono hasked (Nat.le_of_lt hm)
    | _ => cases hevent
  | joined l =>
    rw [hst] at hevent
    cases a with
    | acquire t => cases r <;> cases hevent
    | _ => cases hevent
  | _ => rw [hst] at hevent; cases hevent

/-! ### Who is next -/

/-- Who is told that it is his turn asks. -/
theorem own_joined (hk : Kept asking d σ n) {me : Nat} {l : Look}
    (hseat : (seat d σ n me).stand = .joined l)
    (hmine : ((after d σ n).room.state.tree.acquire me l.ticket).1 = .mine) :
    own? (after d σ n) me = some ⟨.acquire l.ticket, none⟩ := by
  have hrests : ¬ asking.rests (seat d σ n me) := fun hr => by
    rw [show (seat d σ n me).stand = .apart from hr] at hseat
    cases hseat
  obtain ⟨a, hmay, hown⟩ := hk.own hrests
  replace hmay : (seat d σ n me).stand.may a := hmay
  rw [hseat] at hmay
  cases a with
  | acquire k =>
    cases (show k = l.ticket from hmay)
    have hstanding := (attempt_acquire (after d σ n) me l.ticket).2
    rw [hmine] at hstanding
    rw [hown, hstanding]
    rfl
  | _ => exact hmay.elim

/-- While nobody asks and the answer is not there, one of those who wait for it is next to ask. -/
theorem next_asker (hk : Kept asking d σ n) (hs : (slots d σ n).Sound) {me : Nat} {l : Look}
    (hseat : (seat d σ n me).stand = .joined l)
    (hfailed : ∀ x ∈ fetches d σ n l.subject, x.succeeds = false)
    (hnobody : ∀ k l', (seat d σ n k).stand.asking? = some l' → l'.subject ≠ l.subject) :
    ∃ k l', (seat d σ n k).stand = .joined l' ∧ l'.subject = l.subject ∧
      own? (after d σ n) k = some ⟨.acquire l'.ticket, none⟩ := by
  have hlook : (seat d σ n me).stand.look? = some l := by rw [hseat]; rfl
  have hmade := (hs.seated me l hlook).1
  obtain ⟨ph, hc, hi⟩ := hs.slots _ _ hmade
  -- whoever is at the slot is there for the question
  have hsubject {k : Nat} {l' : Look} (hl : (seat d σ n k).stand.look? = some l')
      (hslot : l'.ticket.slot = l.ticket.slot) : l'.subject = l.subject := by
    have h := (hs.seated k l' hl).1
    rw [hslot, hmade] at h
    exact (Option.some.inj h).symm
  cases ph with
  | flying k =>
    obtain ⟨l', hl', hslot⟩ := (hi.asks k).mpr rfl
    exact absurd (hsubject (Stand.look_of_asking hl') hslot) (hnobody k l' hl')
  | got a =>
    obtain ⟨k, f, hf, ha⟩ := hc.exists_of_got
    have hno := hfailed _ hf
    simp only [Event.succeeds, ha] at hno
    cases hno
  | idle =>
    cases hh : ((slots d σ n).tree.slot l.ticket.slot).holder with
    | none => exact ⟨me, l, hseat, rfl, own_joined hk hseat (Tree.acquire_mine hi.value (.inl hh))⟩
    | some k =>
      have hline : k ∈ ((slots d σ n).tree.slot l.ticket.slot).line :=
        List.mem_append_left _ (Option.mem_toList.mpr hh)
      obtain ⟨l', hl', hslot⟩ := (hi.line k hline).resolve_left fun ha => by cases ha
      have hjoined : (seat d σ n k).stand = .joined l' := by
        have hw : (seat d σ n k).stand.waiting? = some l' := hl'
        cases hst : (seat d σ n k).stand <;> rw [hst] at hw <;> cases hw
        rfl
      refine ⟨k, l', hjoined, hsubject (by rw [hjoined]; rfl) hslot, own_joined hk hjoined ?_⟩
      rw [← hslot] at hh hi
      exact Tree.acquire_mine hi.value (.inr hh)

/-! ### One fetch for all -/

/-- For each question of a generation the adapter is asked until it answers, by one task at a time, and
all who ask for the same see the same. -/
structure Shared (d : Debugger ρ) (σ : Nat → Happening (Inspection.Fit (ρ := ρ))) (n : Nat) :
    Prop where
  /-- One fetch at most is in flight. -/
  alone : ∀ me me' l l', (seat d σ n me).stand.asking? = some l →
    (seat d σ n me').stand.asking? = some l' → l.subject = l'.subject → me = me'
  /-- A fetch begins when the one before it has failed. -/
  course : ∀ o, ∃ ph, Inspection.Course (fetches d σ n o) ph
  /-- There is at most one more than have failed. -/
  count : ∀ o, (fetches d σ n o).countP Event.starts ≤ (fetches d σ n o).countP Event.fails + 1
  /-- After a success there is none. -/
  settled : ∀ o pre x post, fetches d σ n o = pre ++ x :: post → x.succeeds = true → post = []
  /-- After a failure one of those who wait for the view is next to ask. -/
  again : ∀ me l, (seat d σ n me).stand = .joined l →
    (∀ x ∈ fetches d σ n l.subject, x.succeeds = false) →
    (∀ k l', (seat d σ n k).stand.asking? = some l' → l'.subject ≠ l.subject) →
    ∃ k l', (seat d σ n k).stand = .joined l' ∧ l'.subject = l.subject ∧
      own? (after d σ n) k = some ⟨.acquire l'.ticket, none⟩
  /-- Only fetches put questions to the adapter, each just its own. -/
  requests : ∀ m < n, ∀ me command v r,
    deed? (after d σ m) (σ m) = some (me, ⟨.send command v, r⟩) → inspecting command = true →
    ∃ l, (seat d σ m me).stand = .asks l ∧ command = l.ticket.key.command ∧
      v = l.ticket.key.arguments
  /-- What a fetch has come to is what the adapter answered to its request. -/
  answers : ∀ o me f, .ends me f ∈ fetches d σ n o → Fetched d σ n me f
  /-- What is told of a look is the view of such an answer, its own failure, or that the tree refuses
  it. -/
  visits : ∀ me t, t ∈ (seat d σ n me).past → (slots d σ n).Backs me t
  /-- All see the same. -/
  same : ∀ me me' l l' v v' r r', .checked l v r ∈ (seat d σ n me).past →
    .checked l' v' r' ∈ (seat d σ n me').past → l.subject = l'.subject → v = v'
  /-- A call that is over tells what has come of its one look. -/
  results : ∀ c id (f : Except DebugError View → ρ) q fits r, σ c = .call id (f <$> inspect q) fits →
    Returned d σ c n r →
      ∃ t : Visit, (seat d σ n (caller d σ c)).past = [t] ∧ t.query = q ∧ r = f t.result

/-- **Questions are shared**: for any calls of any users in any order, and whatever the adapter
answers. -/
theorem shared (timeout : Duration) (id : SessionId)
    (σ : Nat → Happening (Inspection.Fit (ρ := ρ))) (n : Nat) :
    Shared (opened timeout id) σ n := by
  have hk := kept_asking timeout id σ n
  have hs := sound timeout id σ n
  -- for what no slot was made, nobody has asked
  have hcourse (o : Subject) : ∃ ph, Inspection.Course (fetches (opened timeout id) σ n o) ph := by
    by_cases ho : o ∈ (slots (opened timeout id) σ n).made
    · obtain ⟨i, hi⟩ := List.getElem?_of_mem ho
      obtain ⟨ph, hc, -⟩ := hs.slots i o hi
      exact ⟨ph, hc⟩
    · have hnone : fetches (opened timeout id) σ n o = [] :=
        List.filter_eq_nil_iff.mpr fun e he hd => ho (of_decide_eq_true hd ▸ hs.events e he)
      exact ⟨.idle, hnone ▸ .start⟩
  refine ⟨fun me me' l l' hl hl' ho => ?_, hcourse, fun o => ?_, fun o pre x post hh hx => ?_,
    fun me l hseat hfailed hnobody => next_asker hk hs hseat hfailed hnobody,
    fun m hm me command v r hx hcommand => ?_, fun o me f hf => fetched hf, hs.visits,
    fun me me' l l' v v' r r' ht ht' ho => ?_, fun c id' f q fits r hc hr => ?_⟩
  · have hlook := Stand.look_of_asking hl
    have hlook' := Stand.look_of_asking hl'
    have hmade := (hs.seated me l hlook).1
    have hslot : l'.ticket.slot = l.ticket.slot :=
      hs.slot_unique (ho ▸ (hs.seated me' l' hlook').1) hmade
    obtain ⟨ph, -, hi⟩ := hs.slots _ _ hmade
    have hme := (hi.asks me).mp ⟨l, hl, rfl⟩
    exact Option.some.inj (hme.symm.trans ((hi.asks me').mp ⟨l', hl', hslot⟩))
  · obtain ⟨ph, hc⟩ := hcourse o
    rw [hc.count]
    cases ph <;> simp
  · obtain ⟨ph, hc⟩ := hcourse o
    rw [hh] at hc
    exact hc.settled hx
  · have hmay : (seat (opened timeout id) σ m me).stand.may (.send command v) :=
      (kept_asking timeout id σ m).may hx
    cases hst : (seat (opened timeout id) σ m me).stand with
    | apart =>
      rw [hst] at hmay
      rw [show inspecting command = false from hmay] at hcommand
      cases hcommand
    | asks l =>
      rw [hst] at hmay
      exact ⟨l, rfl, hmay⟩
    | _ => rw [hst] at hmay; exact hmay.elim
  · obtain ⟨-, ⟨who, g, a, hg, hsubject, ha, rfl⟩, -⟩ := hs.visits me _ ht
    obtain ⟨-, ⟨who', g', a', hg', hsubject', ha', rfl⟩, -⟩ := hs.visits me' _ ht'
    obtain ⟨ph, hc⟩ := hcourse l.subject
    have hgot := hc.got (List.mem_filter.mpr ⟨hg, decide_eq_true hsubject⟩) ha
    have hgot' := hc.got (List.mem_filter.mpr ⟨hg', decide_eq_true (hsubject'.trans ho.symm)⟩) ha'
    cases hgot.symm.trans hgot'
    rw [ho]
  · have hadheres : (f <$> inspect q).Adheres asking
        (fun p told => ∃ t : Visit, t.query = q ∧ told = f t.result ∧ p = ⟨[t], .apart⟩)
        asking.first :=
      Adheres.map ((adheres_inspect [] q).mono fun p told ⟨t, hq, ht, hp⟩ =>
        ⟨t, hq, congrArg f ht, hp⟩)
    obtain ⟨t, hq, ht, hp⟩ := goal_of_returned below_opened hc hadheres hr
    exact ⟨t, congrArg Inspection.Place.past hp, hq, ht⟩

end Crowd
end DebugHost
