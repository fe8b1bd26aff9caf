import DebugHost.Proofs.Session.Replacing
import Mathlib.Logic.Function.Basic

/-! # The ledger of the breakpoints

What is known of the record of breakpoints at a moment: where every task stands to it, who has it, the
turns that are over, who has taken it and which requests were sent (`Ledger`). It changes in a few ways,
each by one deed of one task (`Ledger.Step`), and all of them keep it fair (`Ledger.Fair.step`): one task
at a time has the record, the record is what the turns that are over have made of it, one after the
other, and the requests that were sent are those of the turns in the order in which the record was
taken. -/

namespace DebugHost

open DebugHost.Script Replacement

namespace Replacement.Stand

/-- Whether the task has the record. -/
def taken : Stand → Bool
  | .apart => false
  | _ => true

/-- The record as it was found. -/
def found? : Stand → Option BreakpointSet
  | .apart => none
  | .holds found => some found
  | .asked found .. => some found
  | .told found _ => some found

/-- The request of the turn, once it is sent. -/
def sent? : Stand → Option Request
  | .asked _ file lines seq => some ⟨seq, "setBreakpoints", replacing file lines⟩
  | .told _ r => r.sent?
  | _ => none

end Replacement.Stand

/-- What is known of the record of breakpoints at a moment. -/
@[ext] structure Ledger where
  place : Nat → Place
  record : BreakpointSet
  /-- To whom the record belongs. -/
  holder : Option Nat
  /-- The turns that are over, and whose they were. -/
  turns : List (Nat × Option Replacement)
  /-- Who has taken the record. -/
  takers : List Nat
  /-- The requests that replace breakpoints. -/
  sent : List Request

namespace Ledger

/-- Who has taken the record and has not left it. -/
def current (l : Ledger) : Option Nat := l.holder.filter fun me => (l.place me).stand.taken

/-- How a ledger changes. -/
inductive Step (l : Ledger) : Ledger → Prop where
  | idle : Step l l
  /-- A task takes the record. -/
  | takes (me : Nat) (past : List (Option Replacement)) (stands : l.place me = ⟨past, .apart⟩)
    (free : l.holder = none ∨ l.holder = some me) :
    Step l { l with
      place := Function.update l.place me ⟨past, .holds l.record⟩
      holder := some me
      takers := l.takers ++ [me] }
  /-- It leaves the record, at which it has only looked. -/
  | leaves (me : Nat) (past : List (Option Replacement)) (found : BreakpointSet)
    (stands : l.place me = ⟨past, .holds found⟩) (holder : Option Nat) :
    Step l { l with
      place := Function.update l.place me ⟨past ++ [none], .apart⟩
      record := found
      holder := holder
      turns := l.turns ++ [(me, none)] }
  /-- It sends a request. -/
  | sends (me : Nat) (past : List (Option Replacement)) (found : BreakpointSet)
    (stands : l.place me = ⟨past, .holds found⟩) (file : Path) (lines : Lines) (seq : Int) :
    Step l { l with
      place := Function.update l.place me ⟨past, .asked found file lines seq⟩
      sent := l.sent ++ [⟨seq, "setBreakpoints", replacing file lines⟩] }
  /-- The connection does not take its request. -/
  | fails (me : Nat) (past : List (Option Replacement)) (found : BreakpointSet)
    (stands : l.place me = ⟨past, .holds found⟩) (file : Path) (lines : Lines) (e : DebugError) :
    Step l { l with
      place := Function.update l.place me ⟨past, .told found ⟨file, lines, none, .error e⟩⟩ }
  /-- It is told what has become of its request. -/
  | hears (me : Nat) (past : List (Option Replacement)) (found : BreakpointSet) (file : Path)
    (lines : Lines) (seq : Int) (stands : l.place me = ⟨past, .asked found file lines seq⟩)
    (answer : Except DebugError SetBreakpointsBody) :
    Step l { l with
      place := Function.update l.place me ⟨past, .told found ⟨file, lines, some seq, answer⟩⟩ }
  /-- It leaves the record with what has become of its request. -/
  | ends (me : Nat) (past : List (Option Replacement)) (found : BreakpointSet) (r : Replacement)
    (stands : l.place me = ⟨past, .told found r⟩) (holder : Option Nat) :
    Step l { l with
      place := Function.update l.place me ⟨past ++ [some r], .apart⟩
      record := commit found r
      holder := holder
      turns := l.turns ++ [(me, some r)] }

/-- Turn after turn, and nothing is forgotten. -/
structure Fair (l : Ledger) : Prop where
  /-- Who has the record is its holder. -/
  holder : ∀ me, (l.place me).stand.taken = true → l.holder = some me
  /-- It still is as he found it. -/
  found : ∀ me found, (l.place me).stand.found? = some found → l.record = found
  /-- The record is what the turns that are over have made of it. -/
  record : l.record = (l.turns.filterMap (·.2)).foldl commit {}
  /-- Every turn began when its task took the record. -/
  takers : l.takers = l.turns.map (·.1) ++ l.current.toList
  /-- The requests are those of the turns. -/
  sent : l.sent = l.turns.filterMap (fun t => t.2.bind Replacement.sent?) ++
    (l.current.bind fun me => (l.place me).stand.sent?).toList
  /-- Every task has had its own turns. -/
  past : ∀ me, (l.place me).past = l.turns.filterMap fun t => if t.1 = me then some t.2 else none

variable {l l' : Ledger}

/-- Who has the record is the current one. -/
theorem Fair.current (h : l.Fair) {me : Nat} (hme : (l.place me).stand.taken = true) :
    l.current = some me := by
  rw [Ledger.current, h.holder me hme, Option.filter_some, if_pos hme]

/-- Where nobody has the record, there is no current one. -/
theorem current_none (h : ∀ me, (l.place me).stand.taken = false) : l.current = none :=
  Option.filter_eq_none_iff.mpr fun me _ => by simp [h me]

/-- Nobody else has the record. -/
theorem Fair.apart (h : l.Fair) {me k : Nat} (hfree : l.holder = none ∨ l.holder = some me)
    (hk : k ≠ me) : (l.place k).stand.taken = false := by
  cases htaken : (l.place k).stand.taken with
  | false => rfl
  | true =>
    have hholder := h.holder k htaken
    rcases hfree with hfree | hfree
    · rw [hfree] at hholder; cases hholder
    · rw [hfree] at hholder; exact absurd (Option.some.inj hholder).symm hk

theorem fair_empty (record : BreakpointSet) (hrecord : record = {}) (holder : Option Nat) :
    Fair ⟨fun _ => ⟨[], .apart⟩, record, holder, [], [], []⟩ := by
  have hnone : Ledger.current ⟨fun _ => ⟨[], .apart⟩, record, holder, [], [], []⟩ = none :=
    current_none fun _ => rfl
  refine ⟨fun me h => (by cases h), fun me found h => (by cases h), hrecord, ?_, ?_, fun _ => rfl⟩
  · rw [hnone]; rfl
  · rw [hnone]; rfl

/-- A task takes the record, which nobody else has. -/
theorem Fair.takes (h : l.Fair) {me : Nat} {past : List (Option Replacement)}
    (hstands : l.place me = ⟨past, .apart⟩) (hfree : l.holder = none ∨ l.holder = some me)
    (hplace : l'.place = Function.update l.place me ⟨past, .holds l.record⟩)
    (hrecord : l'.record = l.record) (hholder : l'.holder = some me) (hturns : l'.turns = l.turns)
    (htakers : l'.takers = l.takers ++ [me]) (hsent : l'.sent = l.sent) : l'.Fair := by
  have hme : l'.place me = ⟨past, .holds l.record⟩ := by rw [hplace, Function.update_self]
  have hother : ∀ k, k ≠ me → l'.place k = l.place k := fun k hk => by
    rw [hplace, Function.update_of_ne hk]
  have hall : ∀ k, (l.place k).stand.taken = false := fun k => by
    by_cases hkm : k = me
    · rw [hkm, hstands]; rfl
    · exact h.apart hfree hkm
  have hnone := current_none hall
  have hcurrent : l'.current = some me := by
    rw [Ledger.current, hholder, Option.filter_some, hme]
    rfl
  refine ⟨fun k hk => ?_, fun k f hf => ?_, ?_, ?_, ?_, fun k => ?_⟩
  · by_cases hkm : k = me
    · rw [hkm, hholder]
    · rw [hother k hkm, hall k] at hk; cases hk
  · rw [hrecord]
    by_cases hkm : k = me
    · rw [hkm, hme] at hf
      exact Option.some.inj hf
    · rw [hother k hkm] at hf; exact h.found k f hf
  · rw [hrecord, hturns, h.record]
  · rw [htakers, hcurrent, hturns, h.takers, hnone]
    exact congrArg (· ++ [me]) (List.append_nil _)
  · rw [hsent, hcurrent, hturns, h.sent, hnone, Option.bind_some, hme]
    rfl
  · rw [hturns]
    by_cases hkm : k = me
    · rw [hkm, hme, ← h.past me, hstands]
    · rw [hother k hkm]; exact h.past k

/-- Within a turn nobody but its task goes on, and the record stays. -/
theorem Fair.within (h : l.Fair) {me : Nat} {past : List (Option Replacement)} {stand stand' : Stand}
    {found : BreakpointSet} (hstands : l.place me = ⟨past, stand⟩) (hfound : stand.found? = some found)
    (hplace : l'.place = Function.update l.place me ⟨past, stand'⟩)
    (hfound' : stand'.found? = some found) (hrecord : l'.record = l.record)
    (hholder : l'.holder = l.holder) (hturns : l'.turns = l.turns) (htakers : l'.takers = l.takers)
    (hsent : l'.sent = l.turns.filterMap (fun t => t.2.bind Replacement.sent?) ++ stand'.sent?.toList) :
    l'.Fair := by
  have hme : l'.place me = ⟨past, stand'⟩ := by rw [hplace, Function.update_self]
  have hother : ∀ k, k ≠ me → l'.place k = l.place k := fun k hk => by
    rw [hplace, Function.update_of_ne hk]
  have htaken : (l.place me).stand.taken = true := by
    rw [hstands]
    cases stand <;> first | rfl | cases hfound
  have htaken' : stand'.taken = true := by cases stand' <;> first | rfl | cases hfound'
  have hcurrent : l'.current = some me := by
    rw [Ledger.current, hholder, h.holder me htaken, Option.filter_some, hme, if_pos htaken']
  refine ⟨fun k hk => ?_, fun k f hf => ?_, ?_, ?_, ?_, fun k => ?_⟩
  · rw [hholder]
    by_cases hkm : k = me
    · rw [hkm]; exact h.holder me htaken
    · rw [hother k hkm] at hk; exact h.holder k hk
  · rw [hrecord]
    by_cases hkm : k = me
    · rw [hkm, hme] at hf
      exact h.found me f (by rw [hstands]; exact (hfound.trans hfound'.symm).trans hf)
    · rw [hother k hkm] at hf; exact h.found k f hf
  · rw [hrecord, hturns, h.record]
  · rw [htakers, hcurrent, hturns, h.takers, h.current htaken]
  · rw [hsent, hcurrent, hturns, Option.bind_some, hme]
  · rw [hturns]
    by_cases hkm : k = me
    · rw [hkm, hme, ← h.past me, hstands]
    · rw [hother k hkm]; exact h.past k

/-- A turn that is over is the last so far, and nobody has the record. -/
theorem Fair.over (h : l.Fair) {me : Nat} {past : List (Option Replacement)} {stand : Stand}
    {found : BreakpointSet} {r? : Option Replacement} (hstands : l.place me = ⟨past, stand⟩)
    (hfound : stand.found? = some found) (hrequest : stand.sent? = r?.bind Replacement.sent?)
    (hplace : l'.place = Function.update l.place me ⟨past ++ [r?], .apart⟩)
    (hrecord : l'.record = r?.toList.foldl commit found) (hturns : l'.turns = l.turns ++ [(me, r?)])
    (htakers : l'.takers = l.takers) (hsent : l'.sent = l.sent) : l'.Fair := by
  have hme : l'.place me = ⟨past ++ [r?], .apart⟩ := by rw [hplace, Function.update_self]
  have hother : ∀ k, k ≠ me → l'.place k = l.place k := fun k hk => by
    rw [hplace, Function.update_of_ne hk]
  have htaken : (l.place me).stand.taken = true := by
    rw [hstands]
    cases stand <;> first | rfl | cases hfound
  have happart : ∀ k, (l'.place k).stand = .apart := by
    intro k
    by_cases hkm : k = me
    · rw [hkm, hme]
    · have hk := h.apart (.inr (h.holder me htaken)) hkm
      rw [hother k hkm]
      cases hs : (l.place k).stand <;> first | rfl | (rw [hs] at hk; cases hk)
  have hcurrent : l'.current = none := current_none fun k => by rw [happart k]; rfl
  have hfiltered : l'.turns.filterMap (·.2) = l.turns.filterMap (·.2) ++ r?.toList := by
    rw [hturns, List.filterMap_append]
    cases r? <;> rfl
  refine ⟨fun k hk => ?_, fun k f hf => ?_, ?_, ?_, ?_, fun k => ?_⟩
  · rw [happart k] at hk; cases hk
  · rw [happart k] at hf; cases hf
  · rw [hrecord, hfiltered, List.foldl_append, ← h.record,
      h.found me found (by rw [hstands]; exact hfound)]
  · rw [htakers, hcurrent, hturns, h.takers, h.current htaken, List.map_append]
    exact (List.append_nil _).symm
  · rw [hsent, hcurrent, hturns, h.sent, h.current htaken, Option.bind_some, hstands, hrequest,
      List.filterMap_append]
    cases hr : r?.bind Replacement.sent? with
    | none => simp [hr]
    | some q => simp [hr]
  · rw [hturns, List.filterMap_append]
    by_cases hkm : k = me
    · rw [hkm, hme, ← h.past me, hstands]
      simp
    · have hmk : ¬ me = k := fun he => hkm he.symm
      rw [hother k hkm, h.past k]
      simp [hmk]

/-- **Every step keeps a ledger fair.** -/
theorem Fair.step (h : l.Fair) (hs : l.Step l') : l'.Fair := by
  -- what was sent in the turns that are over, where the current one has sent `q?` so far
  have hsent {me : Nat} {past : List (Option Replacement)} {stand : Stand}
      (hstands : l.place me = ⟨past, stand⟩) (htaken : stand.taken = true) :
      l.sent = l.turns.filterMap (fun t => t.2.bind Replacement.sent?) ++ stand.sent?.toList := by
    have hcurrent : l.current = some me := h.current (by rw [hstands]; exact htaken)
    rw [h.sent, hcurrent, Option.bind_some, hstands]
  cases hs with
  | idle => exact h
  | takes me past hstands hfree => exact h.takes hstands hfree rfl rfl rfl rfl rfl rfl
  | leaves me past found hstands holder => exact h.over hstands rfl rfl rfl rfl rfl rfl rfl
  | sends me past found hstands file lines seq =>
    refine h.within hstands rfl rfl rfl rfl rfl rfl rfl ?_
    have hnone := hsent hstands rfl
    rw [show Stand.sent? (.holds found) = none from rfl, Option.toList_none, List.append_nil] at hnone
    rw [← hnone]
    rfl
  | fails me past found hstands file lines e =>
    have hnone := hsent hstands rfl
    exact h.within hstands rfl rfl rfl rfl rfl rfl rfl hnone
  | hears me past found file lines seq hstands answer =>
    have hasked := hsent hstands rfl
    exact h.within hstands rfl rfl rfl rfl rfl rfl rfl hasked
  | ends me past found r hstands holder => exact h.over hstands rfl rfl rfl rfl rfl rfl rfl

end Ledger
end DebugHost
