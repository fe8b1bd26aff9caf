import DebugHost.Proofs.Debugger.Crowd
import DebugHost.Proofs.Protocol
import Mathlib.Logic.Function.Basic

/-! # Where the tasks of a crowd are

A task does only what is in its script. Where all scripts adhere to a protocol, every task is at the
place to which its own deeds have led it, and its script goes on from there (`Crowd.kept`). Of a single
call this holds for any protocol to which its own script adheres, whatever the others do
(`Crowd.course`), so that what it comes to can be read off its deeds (`Crowd.goal_of_returned`). -/

namespace DebugHost

open DebugHost.Session DebugHost.Script

variable {ρ P : Type} {π : Protocol P} {p : P}

/-- A task that is at a place goes on as a protocol has it. -/
def Task.Adheres (π : Protocol P) (p : P) : Task ρ → Prop
  | .watch s => s.Adheres π (fun p _ => π.rests p) p
  | .call _ s => s.Adheres π (fun p _ => π.rests p) p
  | _ => π.rests p

theorem Task.Adheres.next {t : Task ρ} {a : Action} {next : a.Reply → Task ρ} (h : t.Adheres π p)
    (hn : t.next? = some ⟨a, next⟩) : π.may p a ∧ ∀ r, (next r).Adheres π (π.next p ⟨a, r⟩) := by
  cases t with
  | watch s =>
    cases s with
    | done u => cases hn
    | act a' next' => cases hn; exact h
  | call id s =>
    cases s with
    | done u => cases hn
    | act a' next' => cases hn; exact h
  | _ => cases hn

theorem Task.Adheres.rests_of_over {t : Task ρ} {told : List (Nat × ρ)} (h : t.Adheres π p)
    (ho : t.Over told) : π.rests p := by
  cases ho with
  | watch => exact h
  | call id r => exact h

theorem Task.adheres_bare {t : Task ρ} (h : Debugger.bare t = true) : t.Adheres π p ↔ π.rests p := by
  cases t with
  | watch s => cases h
  | call id s => cases h
  | _ => exact Iff.rfl

namespace Crowd

open Debugger

variable {fit : Script ρ → Prop} {d : Debugger ρ} {σ : Nat → Happening fit} {c n : Nat}

/-! ### Where a task is -/

/-- All scripts that are gone through adhere to a protocol. -/
structure Governs (π : Protocol P) (fit : Script ρ → Prop) : Prop where
  rests : π.rests π.first
  calls : ∀ s, fit s → s.Adheres π (fun p _ => π.rests p) π.first
  watches : ∀ x epoch ticket,
    (watchResume x epoch ticket).Adheres π (fun p _ => π.rests p) π.first

/-- Every task is where its deeds have led it, and goes on from there. -/
structure Kept (π : Protocol P) (d : Debugger ρ) (σ : Nat → Happening fit) (n : Nat) : Prop where
  below : Below (after d σ n)
  tasks : ∀ me t, (after d σ n).task? me = some t → t.Adheres π (π.place (deeds d σ n me))
  absent : ∀ me, (after d σ n).task? me = none → π.rests (π.place (deeds d σ n me))

theorem Begun.adheres {t : Task ρ} (h : Begun fit t) (hπ : Governs π fit) : t.Adheres π π.first := by
  cases h with
  | call id s hs => exact hπ.calls s hs
  | watch x epoch ticket => exact hπ.watches x epoch ticket

theorem kept_succ (hπ : Governs π fit) (h0 : Below d) (h : Kept π d σ n) : Kept π d σ (n + 1) := by
  refine ⟨below_after h0 σ (n + 1), fun me t ht => ?_, fun me ht => ?_⟩
  · rw [after_succ] at ht
    cases fares (after d σ n) (σ n) me with
    | stays hx hsame =>
      rw [deeds_silent hx]
      exact h.tasks me t (hsame ▸ ht)
    | acts t' x next hx hb hn ha =>
      cases ha.symm.trans ht
      rw [deeds_snoc hx, π.place_snoc]
      exact ((h.tasks me t' hb).next hn).2 x.reply
    | ends t' told hx hb ho ha htold => cases ha.symm.trans ht
    | begins t' hx hnew hb ha =>
      cases ha.symm.trans ht
      rw [deeds_silent hx, deeds_fresh h0 hnew]
      exact hb.adheres hπ
    | lifted t' hx hb hbare ha => cases ha.symm.trans ht
    | laid t' hx hb hbare ha =>
      cases ha.symm.trans ht
      rw [deeds_silent hx]
      exact (Task.adheres_bare hbare).mpr (h.absent me hb)
  · rw [after_succ] at ht
    cases fares (after d σ n) (σ n) me with
    | stays hx hsame =>
      rw [deeds_silent hx]
      exact h.absent me (hsame ▸ ht)
    | acts t' x next hx hb hn ha => cases ha.symm.trans ht
    | ends t' told hx hb ho ha htold =>
      rw [deeds_silent hx]
      exact (h.tasks me t' hb).rests_of_over ho
    | begins t' hx hnew hb ha => cases ha.symm.trans ht
    | lifted t' hx hb hbare ha =>
      rw [deeds_silent hx]
      exact (Task.adheres_bare hbare).mp (h.tasks me t' hb)
    | laid t' hx hb hbare ha => cases ha.symm.trans ht

/-- **Every task is where its deeds have led it**, and goes on from there, in any order. -/
theorem kept (hπ : Governs π fit) (hbelow : Below d) (hbare : ∀ p ∈ d.tasks, bare p.2 = true)
    (σ : Nat → Happening fit) (n : Nat) : Kept π d σ n := by
  induction n with
  | zero =>
    exact ⟨hbelow, fun me t ht => (Task.adheres_bare (hbare _ (task_mem ht))).mpr hπ.rests,
      fun _ _ => hπ.rests⟩
  | succ n ih => exact kept_succ hπ hbelow ih

/-- Only who does something goes to another place. -/
theorem place_deed {me : Nat} {x : Deed} (hx : deed? (after d σ n) (σ n) = some (me, x)) :
    (fun k => π.place (deeds d σ (n + 1) k)) = Function.update (fun k => π.place (deeds d σ n k)) me
      (π.next (π.place (deeds d σ n me)) x) := by
  funext k
  by_cases hk : k = me
  · rw [hk, Function.update_self, deeds_snoc (deedOf_eq_some.mpr hx), π.place_snoc]
  · have hsilent : deedOf (after d σ n) (σ n) k = none := by
      refine Option.eq_none_iff_forall_ne_some.mpr fun y hy => hk ?_
      have := (deedOf_eq_some.mp hy).symm.trans hx
      exact congrArg Prod.fst (Option.some.inj this)
    rw [Function.update_of_ne hk, deeds_silent hsilent]

theorem place_silent (hx : deed? (after d σ n) (σ n) = none) :
    (fun k => π.place (deeds d σ (n + 1) k)) = fun k => π.place (deeds d σ n k) := by
  funext k
  rw [deeds_silent (by rw [deedOf, hx]; rfl)]

/-- What a task does its protocol allows where it is. -/
theorem Kept.may (h : Kept π d σ n) {me : Nat} {x : Deed}
    (hx : deed? (after d σ n) (σ n) = some (me, x)) : π.may (π.place (deeds d σ n me)) x.action := by
  obtain ⟨-, t, next, e, ht, hn, -, -⟩ := acts_of_deed hx
  exact ((h.tasks me t ht).next hn).1

/-- A task that may not be over is there, and has something to do. -/
theorem Kept.present (h : Kept π d σ n) {me : Nat} (hp : ¬ π.rests (π.place (deeds d σ n me))) :
    ∃ t, (after d σ n).task? me = some t ∧ ∃ a next, t.next? = some ⟨a, next⟩ := by
  cases ht : (after d σ n).task? me with
  | none => exact absurd (h.absent me ht) hp
  | some t =>
    have hadheres := h.tasks me t ht
    rcases task_cases t with ha | ⟨told, ho⟩ | hbare
    · exact ⟨t, rfl, ha⟩
    · exact absurd (hadheres.rests_of_over ho) hp
    · exact absurd ((Task.adheres_bare hbare).mp hadheres) hp

/-- What it does when it goes on is something it may do. -/
theorem Kept.own (h : Kept π d σ n) {me : Nat} (hp : ¬ π.rests (π.place (deeds d σ n me))) :
    ∃ a, π.may (π.place (deeds d σ n me)) a ∧
      own? (after d σ n) me = ((after d σ n).attempt me a).2.deed? := by
  obtain ⟨t, ht, a, next, hn⟩ := h.present hp
  refine ⟨a, ((h.tasks me t ht).next hn).1, ?_⟩
  simp only [own?, ht, Option.bind_some, hn, (attempt_without (after d σ n) me me a).1]

/-! ### The course of a call -/

/-- The number of the task of the call that begins in `c`. -/
def caller (d : Debugger ρ) (σ : Nat → Happening fit) (c : Nat) : Nat := (after d σ c).nextTask

/-- The call that begins in `c` has come to `r` when `n` things have happened. -/
def Returned (d : Debugger ρ) (σ : Nat → Happening fit) (c n : Nat) (r : ρ) : Prop :=
  ∃ m ≤ n, c < m ∧ ∃ id, (after d σ m).task? (caller d σ c) = some (.call id (.done r))

/-- A call that begins in `c` has come as far as this: its script goes on from where its deeds have led
it, or it is over, and what it came to is told. -/
inductive Course (π : Protocol P) (goal : P → ρ → Prop) (d : Debugger ρ) (σ : Nat → Happening fit)
    (c n id : Nat) : Prop where
  | going (s : Script ρ) (task : (after d σ n).task? (caller d σ c) = some (.call id s))
    (adheres : s.Adheres π goal (π.place (deeds d σ n (caller d σ c))))
  | ended (r : ρ) (gone : Scriptless (after d σ n) (caller d σ c))
    (old : caller d σ c < (after d σ n).nextTask) (told : (id, r) ∈ (after d σ n).finished)
    (reached : goal (π.place (deeds d σ n (caller d σ c))) r)

variable {goal : P → ρ → Prop} {id : Nat} {s : Script ρ} {hs : fit s}

theorem course_succ (h0 : Below d) (h : Course π goal d σ c n id) :
    Course π goal d σ c (n + 1) id := by
  have hnext := ((below_after h0 σ n).happen (σ n)).2
  have hfinished := finished_happen (after d σ n) (σ n)
  cases h with
  | going s ht hs =>
    cases fares (after d σ n) (σ n) (caller d σ c) with
    | stays hx hsame =>
      refine .going s (hsame.trans ht) ?_
      rw [deeds_silent hx]
      exact hs
    | acts t x next hx hb hn ha =>
      cases hb.symm.trans ht
      cases s with
      | done r => cases hn
      | act a next' =>
        cases hn
        refine .going _ ha ?_
        rw [deeds_snoc hx, π.place_snoc]
        exact hs.2 x.reply
    | ends t told hx hb ho ha htold =>
      cases hb.symm.trans ht
      cases ho with
      | call id r =>
        refine .ended r (scriptless_of_none ha)
          (Nat.lt_of_lt_of_le ((below_after h0 σ n).lt ht) hnext) (htold (List.mem_singleton_self _)) ?_
        rw [deeds_silent hx]
        exact hs
    | begins t hx hnew hb ha =>
      rw [(below_after h0 σ n).task hnew] at ht
      cases ht
    | lifted t hx hb hbare ha => cases hb.symm.trans ht; cases hbare
    | laid t hx hb hbare ha => cases hb.symm.trans ht
  | ended r hgone hold htold hr =>
    refine .ended r (hgone.happen hold (σ n)) (Nat.lt_of_lt_of_le hold hnext)
      (hfinished.subset htold) ?_
    rw [deeds_silent (hgone.silent (σ n))]
    exact hr

/-- **The course of a call**: whatever others do, it goes on as its script has it. -/
theorem course (h0 : Below d) (hc : σ c = .call id s hs)
    (hadheres : s.Adheres π goal π.first) (hn : c < n) : Course π goal d σ c n id := by
  induction hn with
  | refl =>
    have hbelow := below_after h0 σ c
    have hgone := hbelow.task (Nat.le_refl (caller d σ c))
    have hsilent := (scriptless_of_none hgone).silent (σ c)
    have hfresh : deeds d σ c (caller d σ c) = [] := deeds_fresh h0 (Nat.le_refl _)
    refine .going s ?_ ?_
    · rw [Nat.succ_eq_add_one, after_succ, hc]
      exact task?_put_new hgone (.call id s)
    · rw [Nat.succ_eq_add_one, deeds_silent hsilent, hfresh]
      exact hadheres
  | step _ ih => exact course_succ h0 ih

/-- **What a call comes to** is what its deeds have led it to, then and later, and it is told. -/
theorem goal_of_returned (h0 : Below d) (hc : σ c = .call id s hs)
    (hadheres : s.Adheres π goal π.first) {r : ρ} (hr : Returned d σ c n r) :
    goal (π.place (deeds d σ n (caller d σ c))) r := by
  obtain ⟨m, hmn, hcm, id', ht⟩ := hr
  -- from `m` on the task has nothing to do, so that its place stays
  have hstays : ∀ k, m ≤ k → deeds d σ k (caller d σ c) = deeds d σ m (caller d σ c) ∧
      ((after d σ k).task? (caller d σ c) = some (.call id' (.done r)) ∨
        Scriptless (after d σ k) (caller d σ c)) := by
    intro k hk
    have hold : ∀ k, m ≤ k → caller d σ c < (after d σ k).nextTask := fun k hk =>
      Nat.lt_of_lt_of_le ((below_after h0 σ m).lt ht) (nextTask_mono h0 hk)
    induction hk with
    | refl => exact ⟨rfl, .inl ht⟩
    | @step k hk ih =>
      obtain ⟨hdeeds, htask⟩ := ih
      rw [Nat.succ_eq_add_one, after_succ]
      rcases htask with htask | hgone
      · cases fares (after d σ k) (σ k) (caller d σ c) with
        | stays hx hsame => exact ⟨(deeds_silent hx).trans hdeeds, .inl (hsame.trans htask)⟩
        | acts t x next hx hb hn ha => cases hb.symm.trans htask; cases hn
        | ends t told hx hb ho ha =>
          exact ⟨(deeds_silent hx).trans hdeeds, .inr (scriptless_of_none ha)⟩
        | begins t hx hnew hb ha => exact absurd (hold k hk) (Nat.not_lt.mpr hnew)
        | lifted t hx hb hbare ha => cases hb.symm.trans htask; cases hbare
        | laid t hx hb hbare ha => cases hb.symm.trans htask
      · exact ⟨(deeds_silent (hgone.silent _)).trans hdeeds, .inr (hgone.happen (hold k hk) _)⟩
  rw [(hstays n hmn).1]
  cases course h0 hc hadheres hcm with
  | going s' ht' hs' =>
    cases ht'.symm.trans ht
    exact hs'
  | ended r' hgone =>
    have hbare := hgone _ ht
    cases hbare

/-! ### Where calls come from -/

/-- What a task has done it did when something happened. -/
theorem mem_deeds {me : Nat} {x : Deed} :
    x ∈ deeds d σ n me ↔ ∃ m < n, deed? (after d σ m) (σ m) = some (me, x) := by
  induction n with
  | zero =>
    constructor
    · intro h; cases h
    · rintro ⟨m, hm, -⟩; exact absurd hm (Nat.not_lt_zero m)
  | succ n ih =>
    rw [deeds_succ, List.mem_append, ih, Option.mem_toList, deedOf_eq_some]
    constructor
    · rintro (⟨m, hm, h⟩ | h)
      · exact ⟨m, Nat.lt_succ_of_lt hm, h⟩
      · exact ⟨n, Nat.lt_succ_self n, h⟩
    · rintro ⟨m, hm, h⟩
      rcases Nat.lt_succ_iff_lt_or_eq.mp hm with hm | rfl
      · exact .inl ⟨m, hm, h⟩
      · exact .inr h

/-- What a call does it does after it has begun. -/
theorem begun_of_deed (h0 : Below d) {x : Deed}
    (hx : deed? (after d σ n) (σ n) = some (caller d σ c, x)) : c < n := by
  obtain ⟨-, t, -, -, ht, -⟩ := acts_of_deed hx
  have hgiven : caller d σ c < (after d σ n).nextTask := (below_after h0 σ n).lt ht
  by_contra hle
  have hmono : (after d σ n).nextTask ≤ caller d σ c := nextTask_mono h0 (Nat.le_of_not_lt hle)
  exact absurd hgiven (Nat.not_lt.mpr hmono)

/-- Only who begins a call begins one. -/
theorem begins_call {h : Happening fit} {me : Nat} (hnone : d.task? me = none)
    (hcall : (happen d h).task? me = some (.call id s)) :
    me = d.nextTask ∧ ∃ hs, h = .call id s hs := by
  -- where the tasks stay but for one that was there, there is none of this number
  have hput {e : Debugger ρ} {who : Nat} (he : e.tasks = (d.without who).tasks)
      (hwho : d.task? who ≠ none) (t : Task ρ) : (e.put who t).task? me = none := by
    have hne : me ≠ who := fun heq => hwho (heq ▸ hnone)
    rw [task?_put_of_ne hne, task?_of_tasks he, task?_without_of_ne hne]
    exact hnone
  have hsame (htasks : (happen d h).tasks = d.tasks) : False := by
    rw [task?_of_tasks htasks, hnone] at hcall
    cases hcall
  cases h with
  | task who =>
    replace hcall : (d.stride who).task? me = some (.call id s) := hcall
    have hattempt {a : Action} {e : Debugger ρ} {o : Attempt a.Reply}
        (ha : (d.without who).attempt who a = (e, o)) : e.tasks = (d.without who).tasks := by
      have hkeeps := (attempt_keeps (d.without who) who a).1
      rw [ha] at hkeeps
      exact hkeeps
    have hgoes := goes d who
    generalize own? d who = x, d.stride who = d' at hgoes hcall
    cases hgoes with
    | idle => rw [hnone] at hcall; cases hcall
    | does t x next e ht hn ha =>
      rw [hput (hattempt ha) (by rw [ht]; simp)] at hcall
      cases hcall
    | waits t a next e ss deadline ht hn ha =>
      rw [hput (hattempt ha) (by rw [ht]; simp)] at hcall
      cases hcall
    | ends t told ht ho =>
      have hne : me ≠ who := fun heq => by rw [← heq, hnone] at ht; cases ht
      have hgone : (d.without who).task? me = none := (task?_without_of_ne hne).trans hnone
      cases hcall.symm.trans hgone
  | session =>
    -- the session begins no calls
    exfalso
    have hadded {e : Debugger ρ} {news : List (Nat × Task ρ)} (he : e.task? me = some (.call id s))
        (htasks : e.tasks = d.tasks ++ news)
        (hnews : ∀ p ∈ news, ∃ x epoch ticket, p.2 = .watch (watchResume x epoch ticket)) : False := by
      rcases List.mem_append.mp (htasks ▸ task_mem he) with hp | hp
      · have hnot := List.find?_eq_none.mp (Option.map_eq_none_iff.mp hnone) _ hp
        simp at hnot
      · obtain ⟨x, epoch, ticket, ht⟩ := hnews _ hp
        cases ht
    replace hcall : d.attend.task? me = some (.call id s) := hcall
    unfold attend at hcall
    split at hcall
    · have htasks : d.leave.tasks = d.tasks := congrArg Work.tasks (work_leave d)
      rw [task?_of_tasks htasks, hnone] at hcall
      cases hcall
    · split at hcall
      · rw [hnone] at hcall
        cases hcall
      · next i room _ =>
        obtain ⟨-, news, htasks, hnews⟩ := tasks_effects
          (({ d with room := room } : Debugger ρ).stepped i)
          (room.state.step d.link.connection i).effects
        exact hadded hcall htasks fun p hp => (hnews p hp).2.2
  | call id' s' hs' =>
    rcases List.mem_append.mp (task_mem hcall) with hp | hp
    · have hnot := List.find?_eq_none.mp (Option.map_eq_none_iff.mp hnone) _ hp
      simp at hnot
    · cases List.mem_singleton.mp hp
      exact ⟨rfl, hs', rfl⟩
  | outside m hm => exact (hsame (work_outer d hm).1).elim
  | lift who =>
    exfalso
    simp only [happen] at hcall
    split at hcall
    · by_cases hne : me = who
      · rw [hne, task?_without] at hcall
        cases hcall
      · rw [task?_without_of_ne hne, hnone] at hcall
        cases hcall
    · rw [hnone] at hcall
      cases hcall
  | lay who t =>
    exfalso
    simp only [happen] at hcall
    split at hcall
    · next hlay =>
      by_cases hne : me = who
      · subst hne
        rw [task?_put_new hnone] at hcall
        cases hcall
        cases hlay.1
      · rw [task?_put_of_ne hne, hnone] at hcall
        cases hcall
    · rw [hnone] at hcall
      cases hcall
  | aside e => exact (hsame rfl).elim

/-- **A call that is under way was begun**, under its number. -/
theorem call_begun (h0 : Below d) (hbare : ∀ p ∈ d.tasks, bare p.2 = true) {me : Nat} {s : Script ρ}
    (hcall : (after d σ n).task? me = some (.call id s)) :
    ∃ c < n, ∃ s' hs, σ c = .call id s' hs ∧ caller d σ c = me := by
  induction n generalizing s with
  | zero => cases hbare _ (task_mem hcall)
  | succ n ih =>
    have hearlier {s' : Script ρ} (hb : (after d σ n).task? me = some (.call id s')) :
        ∃ c < n + 1, ∃ s' hs, σ c = .call id s' hs ∧ caller d σ c = me := by
      obtain ⟨c, hc, hcall⟩ := ih hb
      exact ⟨c, Nat.lt_succ_of_lt hc, hcall⟩
    cases hbefore : (after d σ n).task? me with
    | none =>
      obtain ⟨hme, hs, hσ⟩ := begins_call hbefore hcall
      exact ⟨n, Nat.lt_succ_self n, s, hs, hσ, hme.symm⟩
    | some t =>
      rw [after_succ] at hcall
      cases fares (after d σ n) (σ n) me with
      | stays hx hsame => exact hearlier (hsame.symm.trans hcall)
      | acts t' x next hx hb hn ha =>
        have hnext := ha.symm.trans hcall
        -- a task that goes on remains of its kind
        cases t' with
        | watch s' =>
          cases s' with
          | done u => cases hn
          | act a next' => cases hn; cases hnext
        | call id' s' =>
          cases s' with
          | done u => cases hn
          | act a next' => cases hn; cases hnext; exact hearlier hb
        | _ => cases hn
      | ends t' told hx hb ho ha => cases ha.symm.trans hcall
      | begins t' hx hnew =>
        rw [(below_after h0 σ n).task hnew] at hbefore
        cases hbefore
      | lifted t' hx hb hbare' ha => cases ha.symm.trans hcall
      | laid t' hx hb =>
        rw [hb] at hbefore
        cases hbefore

/-! ### What a task may still do -/

variable {kind : Action → Prop}

/-- What the session has asked for goes on as it was begun. -/
theorem within_watching (hbare : ∀ p ∈ d.tasks, bare p.2 = true)
    (hkind : ∀ x epoch ticket, (watchResume x epoch ticket).Within kind) {me : Nat} {s : Script Unit}
    (ht : (after d σ n).task? me = some (.watch s)) : s.Within kind := by
  induction n generalizing s with
  | zero => cases hbare _ (task_mem ht)
  | succ n ih =>
    rw [after_succ] at ht
    cases fares (after d σ n) (σ n) me with
    | stays hx hsame => exact ih (hsame.symm.trans ht)
    | acts t x next hx hb hn ha =>
      have hnext := ha.symm.trans ht
      cases t with
      | watch s' =>
        cases s' with
        | done u => cases hn
        | act a next' => cases hn; cases hnext; exact (ih hb).2 x.reply
      | call id s' =>
        cases s' with
        | done u => cases hn
        | act a next' => cases hn; cases hnext
      | _ => cases hn
    | ends t told hx hb ho ha => cases ha.symm.trans ht
    | begins t hx hnew hbegun ha =>
      cases ha.symm.trans ht
      cases hbegun with
      | watch x epoch ticket => exact hkind x epoch ticket
    | lifted t hx hb hbare' ha => cases ha.symm.trans ht
    | laid t hx hb hbare' ha => cases ha.symm.trans ht; cases hbare'

/-- What a call does is of a kind if all is that its script does. -/
theorem kind_of_call (h0 : Below d) {hs : fit s} (hc : σ c = .call id s hs) (hkind : s.Within kind)
    {x : Deed} (hx : deed? (after d σ n) (σ n) = some (caller d σ c, x)) : kind x.action := by
  obtain ⟨-, t, next, -, ht, hnext, -, -⟩ := acts_of_deed hx
  cases course h0 hc hkind.only (begun_of_deed h0 hx) with
  | going s' ht' hs' =>
    cases ht.symm.trans ht'
    cases s' with
    | done r => cases hnext
    | act a next' => cases hnext; exact hs'.1
  | ended r hgone =>
    have hbare := hgone t ht
    rw [bare_of_next hnext] at hbare
    cases hbare

end Crowd
end DebugHost
