import DebugHost.Proofs.Inspection.Asking
import DebugHost.Proofs.Inspection.Tree
import Mathlib.Data.List.Nodup
import Mathlib.Logic.Function.Basic

/-! # The slots of the tree

What is known of the slots at a moment: where every task is with its looks, the tree, of which
generation and for which question each slot was made, and which fetches have begun and ended (`Slots`).
It changes in a few ways, each by one deed of one task or by a new generation (`Slots.Step`), and all of
them keep it sound (`Slots.Sound.step`): for each question of a generation one fetch runs at a time, those
before it have failed, and once one succeeds the slot holds its view for good (`Course`). -/

namespace DebugHost.Inspection

/-! ### Fetches, one after the other -/

/-- A fetch begins or ends. -/
inductive Event where
  | begins (me : Nat) (l : Look)
  | ends (me : Nat) (f : Fetch)

namespace Event

/-- For what the fetch is. -/
def subject : Event → Subject
  | .begins _ l => l.subject
  | .ends _ f => f.look.subject

/-- Whether a fetch begins. -/
def starts : Event → Bool
  | .begins .. => true
  | .ends .. => false

/-- Whether a fetch has failed. -/
def fails : Event → Bool
  | .begins .. => false
  | .ends _ f => match f.outcome with
    | .ok _ => false
    | .error _ => true

/-- Whether a fetch has succeeded. -/
def succeeds : Event → Bool
  | .begins .. => false
  | .ends _ f => match f.outcome with
    | .ok _ => true
    | .error _ => false

theorem fails_ends {me : Nat} {f : Fetch} {e : DebugError} (h : f.outcome = .error e) :
    (ends me f).fails = true := by simp only [fails, h]

theorem not_fails_ends {me : Nat} {f : Fetch} {a : Answer} (h : f.outcome = .ok a) :
    (ends me f).fails = false := by simp only [fails, h]

theorem not_succeeds_ends {me : Nat} {f : Fetch} {e : DebugError} (h : f.outcome = .error e) :
    (ends me f).succeeds = false := by simp only [succeeds, h]

end Event

/-- How it stands with a question. -/
inductive Phase where
  /-- Nobody asks, and the answer is not there. -/
  | idle
  /-- A task asks. -/
  | flying (me : Nat)
  /-- The answer is there. -/
  | got (a : Answer)

namespace Phase

/-- Who asks. -/
def asker? : Phase → Option Nat
  | .flying me => some me
  | _ => none

/-- The view that is there. -/
def view? (g : Generation) : Phase → Option View
  | .got a => some (.of g a)
  | _ => none

end Phase

/-- The fetches for one question: one at a time, until one succeeds. -/
inductive Course : List Event → Phase → Prop where
  | start : Course [] .idle
  | begins {h : List Event} (me : Nat) (l : Look) (before : Course h .idle) :
    Course (h ++ [.begins me l]) (.flying me)
  | fails {h : List Event} {me : Nat} {f : Fetch} {e : DebugError} (before : Course h (.flying me))
    (outcome : f.outcome = .error e) : Course (h ++ [.ends me f]) .idle
  | gets {h : List Event} {me : Nat} {f : Fetch} {a : Answer} (before : Course h (.flying me))
    (outcome : f.outcome = .ok a) : Course (h ++ [.ends me f]) (.got a)

namespace Course

variable {h : List Event} {ph : Phase}

/-- There is at most one fetch more than have failed. -/
theorem count (hc : Course h ph) : h.countP Event.starts =
    h.countP Event.fails + (match ph with
      | .idle => 0
      | _ => 1) := by
  induction hc with
  | start => rfl
  | begins me l before ih =>
    simp only [List.countP_append, List.countP_singleton, ih]
    rfl
  | fails before outcome ih =>
    simp only [List.countP_append, List.countP_singleton, ih, Event.fails_ends outcome]
    rfl
  | gets before outcome ih =>
    simp only [List.countP_append, List.countP_singleton, ih, Event.not_fails_ends outcome]
    rfl

/-- While the answer is not there, no fetch has succeeded. -/
theorem pending (hc : Course h ph) (hph : ph.view? .first = none) : ∀ x ∈ h, x.succeeds = false := by
  induction hc with
  | start => exact fun x hx => by cases hx
  | begins me l before ih =>
    intro x hx
    rcases List.mem_append.mp hx with hx | hx
    · exact ih rfl x hx
    · rw [List.mem_singleton.mp hx]; rfl
  | fails before outcome ih =>
    intro x hx
    rcases List.mem_append.mp hx with hx | hx
    · exact ih rfl x hx
    · rw [List.mem_singleton.mp hx, Event.not_succeeds_ends outcome]
  | gets before outcome ih => cases hph

/-- Whatever happens before the last event is no success. -/
theorem front {pre : List Event} {y : Event} (hc : Course (pre ++ [y]) ph) :
    ∀ x ∈ pre, x.succeeds = false := by
  generalize hh : pre ++ [y] = h at hc
  cases hc with
  | start => exact absurd hh (by simp)
  | begins me l before =>
    obtain ⟨rfl, -⟩ := List.append_inj' hh rfl
    exact before.pending rfl
  | fails before outcome =>
    obtain ⟨rfl, -⟩ := List.append_inj' hh rfl
    exact before.pending rfl
  | gets before outcome =>
    obtain ⟨rfl, -⟩ := List.append_inj' hh rfl
    exact before.pending rfl

/-- Nothing comes after a success. -/
theorem settled {pre post : List Event} {x : Event} (hc : Course (pre ++ x :: post) ph)
    (hs : x.succeeds = true) : post = [] := by
  rcases post.eq_nil_or_concat with rfl | ⟨post', y, rfl⟩
  · rfl
  · rw [List.concat_eq_append, ← List.cons_append, ← List.append_assoc] at hc
    have hfalse := hc.front x (List.mem_append_right _ (List.mem_cons_self ..))
    rw [hs] at hfalse
    cases hfalse

/-- Where the answer is there, a fetch has succeeded. -/
theorem exists_of_got {a : Answer} (hc : Course h (.got a)) :
    ∃ me f, .ends me f ∈ h ∧ f.outcome = .ok a := by
  cases hc with
  | gets before outcome => exact ⟨_, _, List.mem_append_right _ (List.mem_singleton_self _), outcome⟩

/-- All successes have one answer. -/
theorem got (hc : Course h ph) {me : Nat} {f : Fetch} {a : Answer} (hf : .ends me f ∈ h)
    (ha : f.outcome = .ok a) : ph = .got a := by
  cases hc with
  | start => cases hf
  | begins me' l before =>
    rcases List.mem_append.mp hf with hf | hf
    · have := before.pending rfl _ hf
      simp [Event.succeeds, ha] at this
    · cases List.mem_singleton.mp hf
  | fails before outcome =>
    rcases List.mem_append.mp hf with hf | hf
    · have := before.pending rfl _ hf
      simp [Event.succeeds, ha] at this
    · cases List.mem_singleton.mp hf
      rw [ha] at outcome
      cases outcome
  | gets before outcome =>
    rcases List.mem_append.mp hf with hf | hf
    · have := before.pending rfl _ hf
      simp [Event.succeeds, ha] at this
    · cases List.mem_singleton.mp hf
      rw [ha] at outcome
      cases outcome
      rfl

end Course

/-! ### How tasks stand at slots -/

namespace Stand

/-- The look a task is at. -/
def look? : Stand → Option Look
  | .apart => none
  | .joined l => some l
  | .asks l => some l
  | .sent l _ => some l
  | .told f => some f.look
  | .checks l _ => some l

/-- The look for which a task asks. -/
def asking? : Stand → Option Look
  | .asks l => some l
  | .sent l _ => some l
  | .told f => some f.look
  | _ => none

/-- The look for which a task waits. -/
def waiting? : Stand → Option Look
  | .joined l => some l
  | _ => none

/-- Whether the task asks for what belongs into the slot `i`. -/
def AsksAt (s : Stand) (i : Nat) : Prop := ∃ l, s.asking? = some l ∧ l.ticket.slot = i

/-- Whether the task waits at the slot `i`. -/
def WaitsAt (s : Stand) (i : Nat) : Prop := ∃ l, s.waiting? = some l ∧ l.ticket.slot = i

variable {s : Stand} {i : Nat} {l : Look}

theorem look_of_asking (h : s.asking? = some l) : s.look? = some l := by
  cases s <;> first | exact h | cases h

theorem not_asksAt (h : s.asking? = none) : ¬ s.AsksAt i := fun ⟨l, hl, _⟩ => by
  rw [h] at hl; cases hl

theorem not_waitsAt (h : s.waiting? = none) : ¬ s.WaitsAt i := fun ⟨l, hl, _⟩ => by
  rw [h] at hl; cases hl

theorem asksAt_iff (h : s.asking? = some l) : s.AsksAt i ↔ l.ticket.slot = i :=
  ⟨fun ⟨l', hl, hi⟩ => by rw [h] at hl; cases hl; exact hi, fun hi => ⟨l, h, hi⟩⟩

theorem waitsAt_joined : (joined l).WaitsAt i ↔ l.ticket.slot = i :=
  ⟨fun ⟨_, hl, hi⟩ => by cases hl; exact hi, fun hi => ⟨l, rfl, hi⟩⟩

end Stand

/-- The tree `t'` is `t` with another slot `n`. -/
structure Tree.Puts (t : Tree) (n : Nat) (s : Slot) (t' : Tree) : Prop extends t.SameSlots t' where
  slot : ∀ i, t'.slot i = if i = n ∧ n < t.slots.length then s else t.slot i

namespace Tree

/-- For what the slot of a ticket was made, if it was not there before. -/
def makes? (t : Tree) (k : Ticket) : Option Subject :=
  if k.slot = t.slots.length then some (k.generation, k.key) else none

theorem slotFor_of_mem {t : Tree} {k : Key} {i : Nat} (h : (k, i) ∈ t.cache) :
    (t.slotFor k).2 = t := by
  unfold slotFor
  split
  · rfl
  · next hn => exact absurd (List.find?_eq_none.mp hn _ h) (by simp)

theorem join_ok {t t' : Tree} {q : Query} {k : Ticket} (h : t.join q = (.ok k, t')) :
    t.allow q = .ok k.generation ∧ k.key = q.key ∧ k.slot = (t.slotFor q.key).1 ∧
      t' = (t.slotFor q.key).2 := by
  unfold join at h
  split at h
  · cases h
  · next g hg =>
    cases h
    exact ⟨hg, rfl, rfl, rfl⟩

theorem join_error {t t' : Tree} {q : Query} {e : DebugError} (h : t.join q = (.error e, t')) :
    t.Refuses e ∧ t' = t := by
  unfold join at h
  split at h
  · next hg =>
    cases h
    exact ⟨allow_error hg, rfl⟩
  · cases h

theorem puts_setSlot (t : Tree) (n : Nat) (s : Slot) : t.Puts n s (t.setSlot n s) :=
  ⟨t.sameSlots_setSlot n s, fun i => t.slot_setSlot n i s⟩

/-- Who comes to a slot finds the view there, or may ask, or has to wait for another. -/
theorem acquire_cases (t : Tree) (me : Nat) (k : Ticket) :
    (∃ v, (t.slot k.slot).value = some v ∧ t.acquire me k = (.known v, t)) ∨
    (t.slot k.slot).value = none ∧
      (((t.slot k.slot).holder = none ∨ (t.slot k.slot).holder = some me) ∧
        (t.acquire me k).1 = .mine ∧
        t.Puts k.slot { t.slot k.slot with holder := some me } (t.acquire me k).2 ∨
      ∃ h, h ≠ me ∧ (t.slot k.slot).holder = some h ∧ (t.acquire me k).1 = .waiting ∧
        t.Puts k.slot ((t.slot k.slot).enqueue me) (t.acquire me k).2) := by
  cases hv : (t.slot k.slot).value with
  | some v => exact .inl ⟨v, rfl, by simp only [acquire, hv]⟩
  | none =>
    refine .inr ⟨rfl, ?_⟩
    cases hh : (t.slot k.slot).holder with
    | none =>
      have hmine : t.acquire me k =
          (.mine, t.setSlot k.slot { t.slot k.slot with holder := some me }) := by
        simp only [acquire, hv, hh]
      rw [hmine]
      exact .inl ⟨.inl rfl, rfl, t.puts_setSlot _ _⟩
    | some h =>
      by_cases hm : h = me
      · have hmine : t.acquire me k = (.mine, t) := by simp only [acquire, hv, hh, if_pos hm]
        have hsame : ({ t.slot k.slot with holder := some me } : Slot) = t.slot k.slot := by
          rw [← hm, ← hh]
        rw [hmine, hsame]
        refine .inl ⟨.inr (by rw [hm]), rfl, SameSlots.refl t, fun i => ?_⟩
        split
        · next hi => rw [hi.1]
        · rfl
      · have hwaiting : t.acquire me k =
            (.waiting, t.setSlot k.slot ((t.slot k.slot).enqueue me)) := by
          simp only [acquire, hv, hh, if_neg hm]
        rw [hwaiting]
        exact .inr ⟨h, hm, rfl, rfl, t.puts_setSlot _ _⟩

/-- Who comes to a slot without a view, which nobody else has, may ask. -/
theorem acquire_mine {t : Tree} {me : Nat} {k : Ticket} (hv : (t.slot k.slot).value = none)
    (hfree : (t.slot k.slot).holder = none ∨ (t.slot k.slot).holder = some me) :
    (t.acquire me k).1 = .mine := by
  rcases t.acquire_cases me k with ⟨v, hv', -⟩ | ⟨-, ⟨-, hmine, -⟩ | ⟨h, hne, hh, -⟩⟩
  · rw [hv] at hv'; cases hv'
  · exact hmine
  · rw [hh] at hfree
    rcases hfree with hfree | hfree
    · cases hfree
    · exact absurd (Option.some.inj hfree) hne

end Tree

/-- Who has the slot and who waits for it, in order. -/
def Slot.line (s : Slot) : List Nat := s.holder.toList ++ s.queue

/-- A look that took the slot of its question, in the generation of its handle. -/
structure Look.Fits (l : Look) : Prop where
  key : l.ticket.key = l.query.key
  generation : ∀ g, l.query.generation? = some g → g = l.ticket.generation

/-- What is known of the slots at a moment. -/
structure Slots where
  place : Nat → Place
  tree : Tree
  /-- Of which generation and for which question each slot was made. -/
  made : List Subject
  /-- The fetches that have begun and ended, oldest first. -/
  history : List Event

namespace Slots

/-- What has become of the fetches for one question. -/
def course (x : Slots) (o : Subject) : List Event := x.history.filter fun e => decide (e.subject = o)

/-- The adapter has answered the question `o` so that `v` is the view of the answer. -/
def Holds (x : Slots) (o : Subject) (v : View) : Prop :=
  ∃ who f a, .ends who f ∈ x.history ∧ f.look.subject = o ∧ f.outcome = .ok a ∧ v = .of o.1 a

/-- What is behind a look of the task `me` that is over. -/
def Backs (x : Slots) (me : Nat) : Visit → Prop
  | .refused _ e => ∃ t : Tree, t.Refuses e
  | .failed f e => f.look.Fits ∧ .ends me f ∈ x.history ∧ f.outcome = .error e
  | .checked l v r => l.Fits ∧ x.Holds l.subject v ∧
    (r = .ok v ∨ ∃ e, r = .error e ∧ ∃ t : Tree, t.Refuses e)

/-- How it stands with the slot `i`, which is for `o`. -/
structure Stands (x : Slots) (i : Nat) (o : Subject) (ph : Phase) : Prop where
  value : (x.tree.slot i).value = ph.view? o.1
  asks : ∀ me, (x.place me).stand.AsksAt i ↔ ph.asker? = some me
  holds : ∀ me, ph.asker? = some me → (x.tree.slot i).holder = some me
  line : ∀ q ∈ (x.tree.slot i).line, ph.asker? = some q ∨ (x.place q).stand.WaitsAt i
  once : (x.tree.slot i).line.Nodup
  head : (x.tree.slot i).holder = none → (x.tree.slot i).queue = []
  filled : ∀ v, (x.tree.slot i).value = some v → (x.tree.slot i).line = []

/-- Every slot is for one question of one generation, and all that is known of it fits together. -/
structure Sound (x : Slots) : Prop where
  length : x.made.length = x.tree.slots.length
  nodup : x.made.Nodup
  past : ∀ o ∈ x.made, o.1.number ≤ x.tree.generation.number
  cached : ∀ k i, (k, i) ∈ x.tree.cache ↔ x.made[i]? = some (x.tree.generation, k)
  seated : ∀ me l, (x.place me).stand.look? = some l →
    x.made[l.ticket.slot]? = some l.subject ∧ l.Fits
  known : ∀ me l v, (x.place me).stand = .checks l v → x.Holds l.subject v
  visits : ∀ me t, t ∈ (x.place me).past → x.Backs me t
  events : ∀ e ∈ x.history, e.subject ∈ x.made
  slots : ∀ i o, x.made[i]? = some o → ∃ ph, Course (x.course o) ph ∧ x.Stands i o ph

/-- How what is known of the slots changes. -/
inductive Step (x : Slots) : Slots → Prop where
  | idle : Step x x
  /-- A new generation begins. -/
  | renews (t : Tree) (slots : t.slots = x.tree.slots) (cache : t.cache = [])
    (rises : x.tree.generation.number < t.generation.number) : Step x { x with tree := t }
  /-- A task may not look. -/
  | refused (me : Nat) (past : List Visit) (stands : x.place me = ⟨past, .apart⟩) (q : Query)
    (e : DebugError) (refuses : x.tree.Refuses e) :
    Step x { x with place := Function.update x.place me ⟨past ++ [.refused q e], .apart⟩ }
  /-- It takes a slot. -/
  | joins (me : Nat) (past : List Visit) (stands : x.place me = ⟨past, .apart⟩) (q : Query)
    (k : Ticket) (t : Tree) (joined : x.tree.join q = (.ok k, t)) :
    Step x { x with
      place := Function.update x.place me ⟨past, .joined ⟨q, k⟩⟩
      tree := t
      made := x.made ++ (x.tree.makes? k).toList }
  /-- It finds the view there. -/
  | finds (me : Nat) (past : List Visit) (l : Look) (stands : x.place me = ⟨past, .joined l⟩)
    (v : View) (value : (x.tree.slot l.ticket.slot).value = some v) :
    Step x { x with place := Function.update x.place me ⟨past, .checks l v⟩ }
  /-- It has to wait for another task. -/
  | waits (me : Nat) (past : List Visit) (l : Look) (stands : x.place me = ⟨past, .joined l⟩)
    (k : Nat) (other : k ≠ me) (value : (x.tree.slot l.ticket.slot).value = none)
    (holder : (x.tree.slot l.ticket.slot).holder = some k) (t : Tree)
    (puts : x.tree.Puts l.ticket.slot ((x.tree.slot l.ticket.slot).enqueue me) t) :
    Step x { x with tree := t }
  /-- It is to ask. -/
  | asks (me : Nat) (past : List Visit) (l : Look) (stands : x.place me = ⟨past, .joined l⟩)
    (value : (x.tree.slot l.ticket.slot).value = none)
    (free : (x.tree.slot l.ticket.slot).holder = none ∨
      (x.tree.slot l.ticket.slot).holder = some me) (t : Tree)
    (puts : x.tree.Puts l.ticket.slot { x.tree.slot l.ticket.slot with holder := some me } t) :
    Step x { x with
      place := Function.update x.place me ⟨past, .asks l⟩
      tree := t
      history := x.history ++ [.begins me l] }
  /-- Its question goes on. -/
  | goesOn (me : Nat) (past : List Visit) (s s' : Stand) (stands : x.place me = ⟨past, s⟩) (l : Look)
    (before : s.asking? = some l) (then_ : s'.asking? = some l) :
    Step x { x with place := Function.update x.place me ⟨past, s'⟩ }
  /-- It brings the answer to the slot. -/
  | fills (me : Nat) (past : List Visit) (f : Fetch) (stands : x.place me = ⟨past, .told f⟩)
    (a : Answer) (outcome : f.outcome = .ok a) (t : Tree)
    (puts : x.tree.Puts f.look.ticket.slot
      { value := some (.of f.look.ticket.generation a) } t) :
    Step x { x with
      place := Function.update x.place me ⟨past, .checks f.look (.of f.look.ticket.generation a)⟩
      tree := t
      history := x.history ++ [.ends me f] }
  /-- It has asked in vain. -/
  | fails (me : Nat) (past : List Visit) (f : Fetch) (stands : x.place me = ⟨past, .told f⟩)
    (e : DebugError) (outcome : f.outcome = .error e) (t : Tree)
    (puts : x.tree.Puts f.look.ticket.slot (x.tree.slot f.look.ticket.slot).pass.1 t) :
    Step x { x with
      place := Function.update x.place me ⟨past ++ [.failed f e], .apart⟩
      tree := t
      history := x.history ++ [.ends me f] }
  /-- The view is checked. -/
  | checks (me : Nat) (past : List Visit) (l : Look) (v : View)
    (stands : x.place me = ⟨past, .checks l v⟩) (r : Except DebugError View)
    (checked : r = .ok v ∨ ∃ e, r = .error e ∧ x.tree.Refuses e) :
    Step x { x with place := Function.update x.place me ⟨past ++ [.checked l v r], .apart⟩ }

/-! ### What stays -/

variable {x x' : Slots} {i me : Nat} {o : Subject} {ph : Phase} {p p' : Place} {l : Look}

/-- What is known of the fetches only grows. -/
theorem Holds.mono {v : View} (h : x.Holds o v) (hh : x.history ⊆ x'.history) : x'.Holds o v := by
  obtain ⟨who, f, a, hf, h⟩ := h
  exact ⟨who, f, a, hh hf, h⟩

theorem Backs.mono {t : Visit} (h : x.Backs me t) (hh : x.history ⊆ x'.history) :
    x'.Backs me t := by
  cases t with
  | refused q e => exact h
  | failed f e => exact ⟨h.1, hh h.2.1, h.2.2⟩
  | checked l v r => exact ⟨h.1, h.2.1.mono hh, h.2.2⟩

/-- A slot that is not touched stands as before, if its askers and waiters do. -/
theorem Stands.keep (h : x.Stands i o ph) (hslot : x'.tree.slot i = x.tree.slot i)
    (hasks : ∀ k, (x'.place k).stand.AsksAt i ↔ (x.place k).stand.AsksAt i)
    (hwaits : ∀ k ∈ (x.tree.slot i).line, (x.place k).stand.WaitsAt i →
      (x'.place k).stand.WaitsAt i) : x'.Stands i o ph where
  value := hslot ▸ h.value
  asks k := (hasks k).trans (h.asks k)
  holds := hslot ▸ h.holds
  line k hk := by
    rw [hslot] at hk
    exact (h.line k hk).imp_right (hwaits k hk)
  once := hslot ▸ h.once
  head := hslot ▸ h.head
  filled := hslot ▸ h.filled

/-- Where a task that neither asks nor waits at a slot goes on somewhere else, the slot stands as
before. -/
theorem Stands.elsewhere (h : x.Stands i o ph) (hslot : x'.tree.slot i = x.tree.slot i)
    (hplace : x'.place = Function.update x.place me p')
    (hasks : p'.stand.AsksAt i ↔ (x.place me).stand.AsksAt i)
    (hwaits : me ∈ (x.tree.slot i).line → (x.place me).stand.WaitsAt i → p'.stand.WaitsAt i) :
    x'.Stands i o ph := by
  have hother {k : Nat} (hk : k ≠ me) : x'.place k = x.place k := by
    rw [hplace, Function.update_of_ne hk]
  have hme : x'.place me = p' := by rw [hplace, Function.update_self]
  refine h.keep hslot (fun k => ?_) fun k hk hw => ?_
  · by_cases hkm : k = me
    · rw [hkm, hme]; exact hasks
    · rw [hother hkm]
  · by_cases hkm : k = me
    · subst hkm; rw [hme]; exact hwaits hk hw
    · rw [hother hkm]; exact hw

/-- A step of the task `me` after which the slots are still sound. -/
theorem Sound.moved (h : x.Sound) (hplace : x'.place = Function.update x.place me p')
    (htree : x.tree.SameSlots x'.tree) (hmade : x'.made = x.made) (hsub : x.history ⊆ x'.history)
    (hevents : ∀ e ∈ x'.history, e ∈ x.history ∨ e.subject ∈ x.made)
    (hseated : ∀ l, p'.stand.look? = some l → x.made[l.ticket.slot]? = some l.subject ∧ l.Fits)
    (hknown : ∀ l v, p'.stand = .checks l v → x'.Holds l.subject v)
    (hvisits : ∀ t ∈ p'.past, t ∈ (x.place me).past ∨ x'.Backs me t)
    (hslots : ∀ i o, x.made[i]? = some o → ∃ ph, Course (x'.course o) ph ∧ x'.Stands i o ph) :
    x'.Sound := by
  have hother {k : Nat} (hk : k ≠ me) : x'.place k = x.place k := by
    rw [hplace, Function.update_of_ne hk]
  have hme : x'.place me = p' := by rw [hplace, Function.update_self]
  refine ⟨by rw [hmade, h.length, htree.length], hmade ▸ h.nodup, fun o ho => ?_, fun k i => ?_,
    fun k l hl => ?_, fun k l v hv => ?_, fun k t ht => ?_, fun e he => ?_, fun i o ho => ?_⟩
  · rw [hmade] at ho
    rw [htree.generation]
    exact h.past o ho
  · rw [htree.cache, htree.generation, hmade]
    exact h.cached k i
  · rw [hmade]
    by_cases hkm : k = me
    · rw [hkm, hme] at hl; exact hseated l hl
    · rw [hother hkm] at hl; exact h.seated k l hl
  · by_cases hkm : k = me
    · rw [hkm, hme] at hv; exact hknown l v hv
    · rw [hother hkm] at hv; exact (h.known k l v hv).mono hsub
  · by_cases hkm : k = me
    · subst hkm
      rw [hme] at ht
      rcases hvisits t ht with ht | ht
      · exact (h.visits k t ht).mono hsub
      · exact ht
    · rw [hother hkm] at ht; exact (h.visits k t ht).mono hsub
  · rw [hmade]
    rcases hevents e he with he | he
    · exact h.events e he
    · exact he
  · rw [hmade] at ho
    exact hslots i o ho

/-- A slot that is not that of the look at which a task goes on stands as before. -/
theorem Sound.elsewhere (h : x.Sound) (ho : x.made[i]? = some o)
    (hplace : x'.place = Function.update x.place me p') (hslot : x'.tree.slot i = x.tree.slot i)
    (hcourse : x'.course o = x.course o)
    (hbefore : ∀ l, (x.place me).stand.look? = some l → l.ticket.slot ≠ i)
    (hafter : ∀ l, p'.stand.look? = some l → l.ticket.slot ≠ i) :
    ∃ ph, Course (x'.course o) ph ∧ x'.Stands i o ph := by
  obtain ⟨ph, hc, hs⟩ := h.slots i o ho
  have hno {s : Stand} (hs : ∀ l, s.look? = some l → l.ticket.slot ≠ i) :
      ¬ s.AsksAt i ∧ ¬ s.WaitsAt i := by
    refine ⟨fun ⟨l, hl, hi⟩ => hs l (Stand.look_of_asking hl) hi, fun ⟨l, hl, hi⟩ => hs l ?_ hi⟩
    cases s <;> first | exact hl | cases hl
  exact ⟨ph, hcourse ▸ hc, hs.elsewhere hslot hplace
    ⟨fun ha => absurd ha (hno hafter).1, fun ha => absurd ha (hno hbefore).1⟩
    fun _ hw => absurd hw (hno hbefore).2⟩

/-- A task that neither asks nor waits leaves all slots as they are. -/
theorem Sound.aside (h : x.Sound) (ho : x.made[i]? = some o)
    (hplace : x'.place = Function.update x.place me p') (htree : x'.tree = x.tree)
    (hhistory : x'.history = x.history)
    (hbefore : (x.place me).stand.asking? = none ∧ (x.place me).stand.waiting? = none)
    (hafter : p'.stand.asking? = none) : ∃ ph, Course (x'.course o) ph ∧ x'.Stands i o ph := by
  obtain ⟨ph, hc, hs⟩ := h.slots i o ho
  refine ⟨ph, by rw [course, hhistory]; exact hc, hs.elsewhere (by rw [htree]) hplace
    ⟨fun ha => absurd ha (Stand.not_asksAt hafter), fun ha => absurd ha (Stand.not_asksAt hbefore.1)⟩
    fun _ hw => absurd hw (Stand.not_waitsAt hbefore.2)⟩

/-- A slot belongs to one question. -/
theorem Sound.slot_unique (h : x.Sound) {j : Nat} (hi : x.made[i]? = some o)
    (hj : x.made[j]? = some o) : i = j := by
  obtain ⟨hi', hi⟩ := List.getElem?_eq_some_iff.mp hi
  obtain ⟨hj', hj⟩ := List.getElem?_eq_some_iff.mp hj
  exact (h.nodup.getElem_inj_iff).mp (hi.trans hj.symm)

/-- What has happened for one question is of no matter to the others. -/
theorem course_append {es : List Event} (hh : x'.history = x.history ++ es) {o' : Subject}
    (hes : ∀ e ∈ es, e.subject = o') : x'.course o = x.course o ++ if o' = o then es else [] := by
  have hfilter : es.filter (fun e => decide (e.subject = o)) = if o' = o then es else [] := by
    split
    · next ho => exact List.filter_eq_self.mpr fun e he => decide_eq_true ((hes e he).trans ho)
    · next ho =>
      exact List.filter_eq_nil_iff.mpr fun e he => by
        rw [hes e he, decide_eq_false ho]
        exact Bool.false_ne_true
  unfold course
  rw [hh, List.filter_append, hfilter]

/-! ### Every step -/

theorem Sound.renews (h : x.Sound) {t : Tree} (hslots : t.slots = x.tree.slots)
    (hcache : t.cache = []) (hrises : x.tree.generation.number < t.generation.number) :
    Sound { x with tree := t } := by
  have hslot (i : Nat) : t.slot i = x.tree.slot i := by unfold Tree.slot; rw [hslots]
  refine ⟨by rw [h.length, ← hslots], h.nodup, fun o ho => ?_, fun k i => ?_, h.seated, h.known,
    h.visits, h.events, fun i o ho => ?_⟩
  · exact Nat.le_trans (h.past o ho) (Nat.le_of_lt hrises)
  · refine ⟨fun hk => (by rw [hcache] at hk; cases hk), fun hk => ?_⟩
    have hle : t.generation.number ≤ _ := h.past _ (List.mem_of_getElem? hk)
    exact absurd hrises (Nat.not_lt.mpr hle)
  · obtain ⟨ph, hc, hs⟩ := h.slots i o ho
    exact ⟨ph, hc, hs.keep (hslot i) (fun _ => Iff.rfl) fun _ _ hw => hw⟩

theorem Sound.refused (h : x.Sound) {past : List Visit} (hstands : x.place me = ⟨past, .apart⟩)
    (q : Query) {e : DebugError} (hrefuses : x.tree.Refuses e) :
    Sound { x with place := Function.update x.place me ⟨past ++ [.refused q e], .apart⟩ } := by
  refine h.moved rfl (Tree.SameSlots.refl _) rfl (List.Subset.refl _) (fun _ => .inl)
    (fun l hl => by cases hl) (fun l v hv => by cases hv) (fun t ht => ?_)
    fun i o ho => h.aside ho rfl rfl rfl (by rw [hstands]; exact ⟨rfl, rfl⟩) rfl
  rw [hstands]
  rcases List.mem_append.mp ht with ht | ht
  · exact .inl ht
  · rw [List.mem_singleton.mp ht]
    exact .inr ⟨_, hrefuses⟩

theorem Sound.checks (h : x.Sound) {past : List Visit} {v : View}
    (hstands : x.place me = ⟨past, .checks l v⟩) {r : Except DebugError View}
    (hr : r = .ok v ∨ ∃ e, r = .error e ∧ x.tree.Refuses e) :
    Sound { x with place := Function.update x.place me ⟨past ++ [.checked l v r], .apart⟩ } := by
  refine h.moved rfl (Tree.SameSlots.refl _) rfl (List.Subset.refl _) (fun _ => .inl)
    (fun l hl => by cases hl) (fun l v hv => by cases hv) (fun t ht => ?_)
    fun i o ho => h.aside ho rfl rfl rfl (by rw [hstands]; exact ⟨rfl, rfl⟩) rfl
  rw [hstands]
  rcases List.mem_append.mp ht with ht | ht
  · exact .inl ht
  · rw [List.mem_singleton.mp ht]
    refine .inr ⟨(h.seated me l (by rw [hstands]; rfl)).2, h.known me l v (by rw [hstands]), ?_⟩
    exact hr.imp_right fun ⟨e, he, hrefuses⟩ => ⟨e, he, _, hrefuses⟩

/-- Two slots are the same if what they are for is. -/
theorem Sound.cases (h : x.Sound) (hl : (x.place me).stand.look? = some l) (ho : x.made[i]? = some o) :
    (i = l.ticket.slot ∧ o = l.subject) ∨ (l.ticket.slot ≠ i ∧ l.subject ≠ o) := by
  have hmade := (h.seated me l hl).1
  by_cases hi : l.ticket.slot = i
  · rw [hi, ho] at hmade
    exact .inl ⟨hi.symm, Option.some.inj hmade⟩
  · refine .inr ⟨hi, fun he => hi ?_⟩
    rw [← he] at ho
    exact h.slot_unique hmade ho

/-- What a filled slot holds is the view of an answer. -/
theorem Sound.holds (h : x.Sound) (ho : x.made[i]? = some o) {v : View}
    (hv : (x.tree.slot i).value = some v) : x.Holds o v := by
  obtain ⟨ph, hc, hs⟩ := h.slots i o ho
  rw [hs.value] at hv
  cases ph with
  | idle => cases hv
  | flying k => cases hv
  | got a =>
    cases hv
    obtain ⟨me, f, hf, houtcome⟩ := hc.exists_of_got
    obtain ⟨hmem, hsubject⟩ := List.mem_filter.mp hf
    exact ⟨me, f, a, hmem, of_decide_eq_true hsubject, houtcome, rfl⟩

theorem Sound.finds (h : x.Sound) {past : List Visit} (hstands : x.place me = ⟨past, .joined l⟩)
    {v : View} (hv : (x.tree.slot l.ticket.slot).value = some v) :
    Sound { x with place := Function.update x.place me ⟨past, .checks l v⟩ } := by
  have hlook : (x.place me).stand.look? = some l := by rw [hstands]; rfl
  have hseated := h.seated me l hlook
  refine h.moved rfl (Tree.SameSlots.refl _) rfl (List.Subset.refl _) (fun _ => .inl)
    (fun l' hl => by cases hl; exact hseated) (fun l' v' hv' => ?_)
    (fun t ht => .inl (by rw [hstands]; exact ht)) fun i o ho => ?_
  · cases hv'
    exact h.holds hseated.1 hv
  · obtain ⟨ph, hc, hs⟩ := h.slots i o ho
    refine ⟨ph, hc, hs.elsewhere rfl rfl ?_ fun hk hw => ?_⟩
    · exact ⟨fun ha => absurd ha (Stand.not_asksAt rfl),
        fun ha => absurd ha (Stand.not_asksAt (by rw [hstands]; rfl))⟩
    · -- nobody waits at a slot that is filled
      rw [hstands, Stand.waitsAt_joined] at hw
      subst hw
      rw [hs.filled v hv] at hk
      cases hk

theorem Sound.goesOn (h : x.Sound) {past : List Visit} {s s' : Stand}
    (hstands : x.place me = ⟨past, s⟩) (hs : s.asking? = some l) (hs' : s'.asking? = some l) :
    Sound { x with place := Function.update x.place me ⟨past, s'⟩ } := by
  have hseated := h.seated me l (by rw [hstands]; exact Stand.look_of_asking hs)
  refine h.moved rfl (Tree.SameSlots.refl _) rfl (List.Subset.refl _) (fun _ => .inl)
    (fun l' hl => ?_) (fun l' v' hv' => ?_) (fun t ht => .inl (by rw [hstands]; exact ht))
    fun i o ho => ?_
  · rw [Stand.look_of_asking hs'] at hl
    cases hl
    exact hseated
  · dsimp only at hv'
    rw [hv'] at hs'
    cases hs'
  · obtain ⟨ph, hc, hsi⟩ := h.slots i o ho
    refine ⟨ph, hc, hsi.elsewhere rfl rfl ?_ fun hk hw => ?_⟩
    · rw [hstands]
      exact (Stand.asksAt_iff hs').trans (Stand.asksAt_iff hs).symm
    · rw [hstands] at hw
      refine absurd hw (Stand.not_waitsAt ?_)
      cases s <;> first | rfl | cases hs

/-- Where a task touches the slot of its look, all others stand as before. -/
theorem Sound.touched (h : x.Sound) {s : Slot} (hlook : (x.place me).stand.look? = some l)
    (hplace : x'.place = Function.update x.place me p')
    (hputs : x.tree.Puts l.ticket.slot s x'.tree)
    (hafter : ∀ l', p'.stand.look? = some l' → l' = l) {es : List Event}
    (hh : x'.history = x.history ++ es) (hes : ∀ e ∈ es, e.subject = l.subject)
    (hslot : ∀ ph, Course (x.course l.subject) ph → x.Stands l.ticket.slot l.subject ph →
      x'.tree.slot l.ticket.slot = s →
      ∃ ph', Course (x.course l.subject ++ es) ph' ∧ x'.Stands l.ticket.slot l.subject ph')
    (ho : x.made[i]? = some o) : ∃ ph, Course (x'.course o) ph ∧ x'.Stands i o ph := by
  rcases h.cases hlook ho with ⟨rfl, rfl⟩ | ⟨hi, hne⟩
  · obtain ⟨ph, hc, hs⟩ := h.slots _ _ ho
    have hlt : l.ticket.slot < x.tree.slots.length :=
      h.length ▸ (List.getElem?_eq_some_iff.mp ho).1
    rw [course_append hh hes, if_pos rfl]
    exact hslot ph hc hs (by rw [hputs.slot, if_pos ⟨rfl, hlt⟩])
  · refine h.elsewhere ho hplace ?_ ?_ (fun l' hl' => ?_) fun l' hl' => ?_
    · rw [hputs.slot, if_neg fun hi' => hi hi'.1.symm]
    · rw [course_append hh hes, if_neg hne, List.append_nil]
    · rw [hlook] at hl'; cases hl'; exact hi
    · rw [hafter l' hl']; exact hi

/-- One more task waits at a slot that another has. -/
theorem Stands.enqueue (h : x.Stands i o ph) {k : Nat} (hk : k ≠ me)
    (hholder : (x.tree.slot i).holder = some k) (hvalue : (x.tree.slot i).value = none)
    (hwaits : (x.place me).stand.WaitsAt i) (hplace : x'.place = x.place)
    (hslot : x'.tree.slot i = (x.tree.slot i).enqueue me) : x'.Stands i o ph := by
  by_cases hq : me ∈ (x.tree.slot i).queue
  · rw [Slot.enqueue, if_pos hq] at hslot
    exact h.keep hslot (fun _ => by rw [hplace]) fun _ _ hw => by rw [hplace]; exact hw
  · rw [Slot.enqueue, if_neg hq] at hslot
    have hline : (x'.tree.slot i).line = (x.tree.slot i).line ++ [me] := by
      rw [hslot]
      exact (List.append_assoc ..).symm
    have hme : me ∉ (x.tree.slot i).line := by
      intro hme
      rcases List.mem_append.mp hme with hme | hme
      · rw [hholder, Option.mem_toList, Option.some.injEq] at hme
        exact hk hme
      · exact hq hme
    refine ⟨by rw [hslot]; exact h.value, by rw [hplace]; exact h.asks, by rw [hslot]; exact h.holds,
      fun q hq' => ?_, ?_, fun hn => ?_, fun v hv => ?_⟩
    · rw [hplace]
      rw [hline] at hq'
      rcases List.mem_append.mp hq' with hq' | hq'
      · exact h.line q hq'
      · rw [List.mem_singleton.mp hq']
        exact .inr hwaits
    · rw [hline]
      exact h.once.append (List.nodup_singleton me) (List.disjoint_singleton.mpr hme)
    · rw [hslot] at hn
      exact absurd (hholder.symm.trans hn) (by simp)
    · rw [hslot] at hv
      exact absurd (hvalue.symm.trans hv) (by simp)

theorem Sound.waits (h : x.Sound) {past : List Visit} (hstands : x.place me = ⟨past, .joined l⟩)
    {k : Nat} (hk : k ≠ me) (hvalue : (x.tree.slot l.ticket.slot).value = none)
    (hholder : (x.tree.slot l.ticket.slot).holder = some k) {t : Tree}
    (hputs : x.tree.Puts l.ticket.slot ((x.tree.slot l.ticket.slot).enqueue me) t) :
    Sound { x with tree := t } := by
  have hlook : (x.place me).stand.look? = some l := by rw [hstands]; rfl
  have hplace : x.place = Function.update x.place me (x.place me) :=
    (Function.update_eq_self _ _).symm
  refine h.moved hplace hputs.toSameSlots rfl (List.Subset.refl _) (fun _ => .inl)
    (fun l' hl => h.seated me l' hl) (fun l' v' hv' => h.known me l' v' hv') (fun t ht => .inl ht)
    fun i o ho => h.touched hlook hplace hputs (fun l' hl' => ?_) (List.append_nil _).symm
      (fun e he => by cases he) (fun ph hc hs hslot => ⟨ph, ?_, hs.enqueue hk hholder hvalue ?_ rfl
        hslot⟩) ho
  · exact Option.some.inj (hl'.symm.trans hlook)
  · rw [List.append_nil]
    exact hc
  · rw [hstands]
    exact ⟨l, rfl, rfl⟩

/-- A task that waits at a slot without a view, which nobody else has, begins to ask. -/
theorem Stands.begins (h : x.Stands i o ph) {past : List Visit}
    (hstands : x.place me = ⟨past, .joined l⟩) (hi : l.ticket.slot = i)
    (hvalue : (x.tree.slot i).value = none)
    (hfree : (x.tree.slot i).holder = none ∨ (x.tree.slot i).holder = some me)
    (hplace : x'.place = Function.update x.place me ⟨past, .asks l⟩)
    (hslot : x'.tree.slot i = { x.tree.slot i with holder := some me }) :
    ph = .idle ∧ x'.Stands i o (.flying me) := by
  have hother {k : Nat} (hk : k ≠ me) : x'.place k = x.place k := by
    rw [hplace, Function.update_of_ne hk]
  have hme : x'.place me = ⟨past, .asks l⟩ := by rw [hplace, Function.update_self]
  have hidle : ph = .idle := by
    have hno : ph.asker? ≠ some me := fun ha => by
      refine absurd ((h.asks me).mpr ha) (Stand.not_asksAt ?_)
      rw [hstands]; rfl
    have hv := h.value.symm.trans hvalue
    cases ph with
    | idle => rfl
    | flying k =>
      have hk := h.holds k rfl
      rcases hfree with hfree | hfree
      · rw [hfree] at hk; cases hk
      · rw [hfree] at hk
        cases hk
        exact absurd rfl hno
    | got a => cases hv
  subst hidle
  -- who was first in line has begun, the others still wait
  have hqueue : me ∉ (x.tree.slot i).queue := by
    intro hq
    rcases hfree with hfree | hfree
    · rw [h.head hfree] at hq; cases hq
    · have honce := h.once
      rw [Slot.line, hfree] at honce
      exact (List.nodup_cons.mp honce).1 hq
  refine ⟨rfl, by rw [hslot]; exact hvalue, fun k => ?_, fun k hk => (by rw [hslot]; exact hk),
    fun q hq => ?_, ?_, fun hn => ?_, fun v hv => ?_⟩
  · by_cases hk : k = me
    · subst hk
      rw [hme]
      exact ⟨fun _ => rfl, fun _ => ⟨l, rfl, hi⟩⟩
    · rw [hother hk]
      refine (h.asks k).trans ⟨fun ha => (by cases ha), fun ha => ?_⟩
      exact absurd (Option.some.inj ha).symm hk
  · rw [hslot] at hq
    rcases List.mem_append.mp hq with hq | hq
    · exact .inl (Option.mem_toList.mp hq)
    · have hne : q ≠ me := fun he => hqueue (he ▸ hq)
      rw [hother hne]
      exact .inr ((h.line q (List.mem_append_right _ hq)).resolve_left fun ha => by cases ha)
  · rw [hslot]
    exact List.nodup_cons.mpr ⟨hqueue, (List.nodup_append.mp h.once).2.1⟩
  · rw [hslot] at hn; cases hn
  · rw [hslot] at hv
    exact absurd (hvalue.symm.trans hv) (by simp)

theorem Sound.asks (h : x.Sound) {past : List Visit} (hstands : x.place me = ⟨past, .joined l⟩)
    (hvalue : (x.tree.slot l.ticket.slot).value = none)
    (hfree : (x.tree.slot l.ticket.slot).holder = none ∨
      (x.tree.slot l.ticket.slot).holder = some me) {t : Tree}
    (hputs : x.tree.Puts l.ticket.slot { x.tree.slot l.ticket.slot with holder := some me } t) :
    Sound { x with
      place := Function.update x.place me ⟨past, .asks l⟩
      tree := t
      history := x.history ++ [.begins me l] } := by
  have hlook : (x.place me).stand.look? = some l := by rw [hstands]; rfl
  have hseated := h.seated me l hlook
  refine h.moved rfl hputs.toSameSlots rfl (List.subset_append_left _ _) (fun e he => ?_)
    (fun l' hl => by cases hl; exact hseated) (fun l' v' hv' => by cases hv')
    (fun t ht => .inl (by rw [hstands]; exact ht)) fun i o ho =>
      h.touched hlook rfl hputs (fun l' hl' => by cases hl'; rfl) rfl
        (fun e he => by cases List.mem_singleton.mp he; rfl) (fun ph hc hs hslot => ?_) ho
  · rcases List.mem_append.mp he with he | he
    · exact .inl he
    · rw [List.mem_singleton.mp he]
      exact .inr (List.mem_of_getElem? hseated.1)
  · obtain ⟨rfl, hs'⟩ := hs.begins hstands rfl hvalue hfree rfl hslot
    exact ⟨.flying me, .begins me l hc, hs'⟩

/-- Who has asked is the one who asks. -/
theorem Stands.flying (h : x.Stands i o ph) (hasks : (x.place me).stand.AsksAt i) :
    ph = .flying me := by
  have := (h.asks me).mp hasks
  cases ph with
  | idle => cases this
  | flying k => exact congrArg Phase.flying (Option.some.inj this)
  | got a => cases this

/-- Once the asker is through, nobody asks. -/
theorem Stands.lands (h : x.Stands i o (.flying me))
    (hplace : x'.place = Function.update x.place me p') (hp : p'.stand.asking? = none) (k : Nat) :
    ¬ (x'.place k).stand.AsksAt i := by
  rw [hplace]
  by_cases hk : k = me
  · rw [hk, Function.update_self]
    exact Stand.not_asksAt hp
  · rw [Function.update_of_ne hk]
    exact fun ha => hk (Option.some.inj ((h.asks k).mp ha)).symm

/-- The asker brings the answer. -/
theorem Stands.fills (h : x.Stands i o (.flying me)) {a : Answer}
    (hplace : x'.place = Function.update x.place me p') (hp : p'.stand.asking? = none)
    (hslot : x'.tree.slot i = { value := some (.of o.1 a) }) : x'.Stands i o (.got a) := by
  refine ⟨by rw [hslot]; rfl, fun k => ⟨fun ha => absurd ha (h.lands hplace hp k), fun ha => ?_⟩,
    fun k hk => ?_, fun q hq => ?_, ?_, fun _ => ?_, fun v _ => ?_⟩
  · cases ha
  · cases hk
  · rw [hslot] at hq; cases hq
  · rw [hslot]; exact List.nodup_nil
  · rw [hslot]
  · rw [hslot]; rfl

/-- The asker has failed, and the next in line has the slot. -/
theorem Stands.passes (h : x.Stands i o (.flying me))
    (hplace : x'.place = Function.update x.place me p') (hp : p'.stand.asking? = none)
    (hslot : x'.tree.slot i = (x.tree.slot i).pass.1) : x'.Stands i o .idle := by
  have hholder := h.holds me rfl
  have hline : (x.tree.slot i).line = me :: (x.tree.slot i).queue := by
    rw [Slot.line, hholder]; rfl
  have honce := hline ▸ h.once
  have hpass : (x'.tree.slot i).line = (x.tree.slot i).queue ∧
      (x'.tree.slot i).value = (x.tree.slot i).value ∧
      ((x'.tree.slot i).holder = none → (x'.tree.slot i).queue = []) := by
    rw [hslot, Slot.pass]
    cases hq : (x.tree.slot i).queue with
    | nil => exact ⟨rfl, rfl, fun _ => rfl⟩
    | cons c rest => exact ⟨rfl, rfl, fun hn => by cases hn⟩
  refine ⟨hpass.2.1.trans h.value,
    fun k => ⟨fun ha => absurd ha (h.lands hplace hp k), fun ha => ?_⟩, fun k hk => ?_,
    fun q hq => ?_, ?_, hpass.2.2, fun v hv => ?_⟩
  · cases ha
  · cases hk
  · rw [hpass.1] at hq
    have hne : q ≠ me := fun he => (List.nodup_cons.mp honce).1 (he ▸ hq)
    rw [hplace, Function.update_of_ne hne]
    refine .inr ((h.line q (hline ▸ List.mem_cons_of_mem _ hq)).resolve_left fun ha => ?_)
    exact hne (Option.some.inj ha).symm
  · rw [hpass.1]
    exact (List.nodup_cons.mp honce).2
  · rw [hpass.2.1, h.value] at hv
    cases hv

theorem Sound.fills (h : x.Sound) {past : List Visit} {f : Fetch}
    (hstands : x.place me = ⟨past, .told f⟩) {a : Answer} (houtcome : f.outcome = .ok a) {t : Tree}
    (hputs : x.tree.Puts f.look.ticket.slot { value := some (.of f.look.ticket.generation a) } t) :
    Sound { x with
      place := Function.update x.place me ⟨past, .checks f.look (.of f.look.ticket.generation a)⟩
      tree := t
      history := x.history ++ [.ends me f] } := by
  have hlook : (x.place me).stand.look? = some f.look := by rw [hstands]; rfl
  have hseated := h.seated me f.look hlook
  refine h.moved rfl hputs.toSameSlots rfl (List.subset_append_left _ _) (fun e he => ?_)
    (fun l' hl => by cases hl; exact hseated) (fun l' v' hv' => ?_)
    (fun t ht => .inl (by rw [hstands]; exact ht)) fun i o ho =>
      h.touched hlook rfl hputs (fun l' hl' => by cases hl'; rfl) rfl
        (fun e he => by cases List.mem_singleton.mp he; rfl) (fun ph hc hs hslot => ?_) ho
  · rcases List.mem_append.mp he with he | he
    · exact .inl he
    · rw [List.mem_singleton.mp he]
      exact .inr (List.mem_of_getElem? hseated.1)
  · cases hv'
    exact ⟨me, f, a, List.mem_append_right _ (List.mem_singleton_self _), rfl, houtcome, rfl⟩
  · have hasks : (x.place me).stand.AsksAt f.look.ticket.slot := by
      rw [hstands]; exact ⟨_, rfl, rfl⟩
    cases hs.flying hasks
    exact ⟨.got a, .gets hc houtcome, hs.fills rfl rfl hslot⟩

theorem Sound.fails (h : x.Sound) {past : List Visit} {f : Fetch}
    (hstands : x.place me = ⟨past, .told f⟩) {e : DebugError} (houtcome : f.outcome = .error e)
    {t : Tree} (hputs : x.tree.Puts f.look.ticket.slot (x.tree.slot f.look.ticket.slot).pass.1 t) :
    Sound { x with
      place := Function.update x.place me ⟨past ++ [.failed f e], .apart⟩
      tree := t
      history := x.history ++ [.ends me f] } := by
  have hlook : (x.place me).stand.look? = some f.look := by rw [hstands]; rfl
  have hseated := h.seated me f.look hlook
  refine h.moved rfl hputs.toSameSlots rfl (List.subset_append_left _ _) (fun e he => ?_)
    (fun l' hl => by cases hl) (fun l' v' hv' => by cases hv') (fun t ht => ?_) fun i o ho =>
      h.touched hlook rfl hputs (fun l' hl' => by cases hl') rfl
        (fun e he => by cases List.mem_singleton.mp he; rfl) (fun ph hc hs hslot => ?_) ho
  · rcases List.mem_append.mp he with he | he
    · exact .inl he
    · rw [List.mem_singleton.mp he]
      exact .inr (List.mem_of_getElem? hseated.1)
  · rw [hstands]
    rcases List.mem_append.mp ht with ht | ht
    · exact .inl ht
    · rw [List.mem_singleton.mp ht]
      exact .inr ⟨hseated.2, List.mem_append_right _ (List.mem_singleton_self _), houtcome⟩
  · have hasks : (x.place me).stand.AsksAt f.look.ticket.slot := by
      rw [hstands]; exact ⟨_, rfl, rfl⟩
    cases hs.flying hasks
    exact ⟨.idle, .fails hc houtcome, hs.passes rfl rfl hslot⟩

/-- A task takes a slot that was made for its question. -/
theorem Sound.takes (h : x.Sound) {past : List Visit} (hstands : x.place me = ⟨past, .apart⟩)
    (hmade : x.made[l.ticket.slot]? = some l.subject) (hfits : l.Fits) :
    Sound { x with place := Function.update x.place me ⟨past, .joined l⟩ } := by
  refine h.moved rfl (Tree.SameSlots.refl _) rfl (List.Subset.refl _) (fun _ => .inl)
    (fun l' hl => by cases hl; exact ⟨hmade, hfits⟩) (fun l' v' hv' => by cases hv')
    (fun t ht => .inl (by rw [hstands]; exact ht))
    fun i o ho => h.aside ho rfl rfl rfl (by rw [hstands]; exact ⟨rfl, rfl⟩) rfl

theorem getElem?_snoc {α : Type} {as : List α} {a b : α} :
    (as ++ [a])[i]? = some b ↔ as[i]? = some b ∨ i = as.length ∧ b = a := by
  rcases Nat.lt_trichotomy i as.length with hi | rfl | hi
  · rw [List.getElem?_append_left hi]
    simp [Nat.ne_of_lt hi]
  · rw [List.getElem?_concat_length]
    simp [eq_comm]
  · have h1 : (as ++ [a]).length ≤ i := by rw [List.length_append]; exact hi
    rw [List.getElem?_eq_none h1, List.getElem?_eq_none (Nat.le_of_lt hi)]
    simp [Nat.ne_of_gt hi]

/-- A slot is made for a question that has none. -/
theorem Sound.makes (h : x.Sound) {k : Key} (hnew : ∀ i, (k, i) ∉ x.tree.cache) {t : Tree}
    (halike : x.tree.Alike t) (hcache : t.cache = x.tree.cache ++ [(k, x.tree.slots.length)])
    (hlength : t.slots.length = x.tree.slots.length + 1) (hslot : ∀ i, t.slot i = x.tree.slot i) :
    Sound { x with tree := t, made := x.made ++ [(x.tree.generation, k)] } := by
  have hlast (i : Nat) (o : Subject) : (x.made ++ [(x.tree.generation, k)])[i]? = some o ↔
      x.made[i]? = some o ∨ i = x.tree.slots.length ∧ o = (x.tree.generation, k) := by
    rw [← h.length]
    exact getElem?_snoc
  have hfresh : (x.tree.generation, k) ∉ x.made := fun hm => by
    obtain ⟨i, hi⟩ := List.getElem?_of_mem hm
    exact hnew i ((h.cached k i).mpr hi)
  refine ⟨?_, ?_, fun o ho => ?_, fun k' i => ?_, fun me l hl => ?_, h.known, h.visits,
    fun e he => List.mem_append_left _ (h.events e he), fun i o ho => ?_⟩
  · rw [List.length_append, h.length]
    exact hlength.symm
  · exact h.nodup.append (List.nodup_singleton _) (List.disjoint_singleton.mpr hfresh)
  · show o.1.number ≤ t.generation.number
    rw [halike.generation]
    rcases List.mem_append.mp ho with ho | ho
    · exact h.past o ho
    · exact Nat.le_of_eq (congrArg (·.1.number) (List.mem_singleton.mp ho))
  · show (k', i) ∈ t.cache ↔ _ = some (t.generation, k')
    rw [hcache, halike.generation, hlast, List.mem_append, h.cached, List.mem_singleton,
      Prod.mk.injEq, Prod.mk.injEq]
    exact or_congr_right ⟨fun ⟨hk, hi⟩ => ⟨hi, rfl, hk⟩, fun ⟨hi, _, hk⟩ => ⟨hk, hi⟩⟩
  · obtain ⟨hm, hfits⟩ := h.seated me l hl
    exact ⟨(hlast _ _).mpr (.inl hm), hfits⟩
  · rcases (hlast i o).mp ho with ho | ⟨rfl, rfl⟩
    · obtain ⟨ph, hc, hs⟩ := h.slots i o ho
      exact ⟨ph, hc, hs.keep (hslot i) (fun _ => Iff.rfl) fun _ _ hw => hw⟩
    · have hempty : t.slot x.tree.slots.length = {} := by
        rw [hslot, Tree.slot, List.getD_eq_getElem?_getD, List.getElem?_eq_none (Nat.le_refl _)]
        rfl
      have hcourse : x.course (x.tree.generation, k) = [] :=
        List.filter_eq_nil_iff.mpr fun e he hd => hfresh (of_decide_eq_true hd ▸ h.events e he)
      refine ⟨.idle, hcourse ▸ .start, ?_⟩
      refine ⟨congrArg Slot.value hempty, fun me => ⟨fun ⟨l, hl, hi⟩ => ?_, fun ha => by cases ha⟩,
        fun _ ha => (by cases ha), fun q hq => ?_, ?_, fun _ => congrArg Slot.queue hempty,
        fun v _ => congrArg Slot.line hempty⟩
      · have hm := (h.seated me l (Stand.look_of_asking hl)).1
        rw [hi, ← h.length, List.getElem?_eq_none (Nat.le_refl _)] at hm
        cases hm
      · have hq' : q ∈ (t.slot x.tree.slots.length).line := hq
        rw [hempty] at hq'
        cases hq'
      · show (t.slot x.tree.slots.length).line.Nodup
        rw [hempty]
        exact List.nodup_nil

/-- A task takes the slot of its question, which is made if there is none. -/
theorem Sound.joins (h : x.Sound) {past : List Visit} (hstands : x.place me = ⟨past, .apart⟩)
    {q : Query} {k : Ticket} {t : Tree} (hjoin : x.tree.join q = (.ok k, t)) :
    Sound { x with
      place := Function.update x.place me ⟨past, .joined ⟨q, k⟩⟩
      tree := t
      made := x.made ++ (x.tree.makes? k).toList } := by
  obtain ⟨hallow, hkey, hslot, ht⟩ := Tree.join_ok hjoin
  obtain ⟨-, hg, hquery⟩ := Tree.allow_ok hallow
  have hfits : Look.Fits ⟨q, k⟩ := ⟨hkey, hquery⟩
  have halike := x.tree.alike_slotFor q.key
  rcases x.tree.slotFor_cases q.key with ⟨hmem, hsame⟩ | ⟨hnew, hcache, hlength⟩
  · have hmade := (h.cached _ _).mp hmem
    have hlt := (List.getElem?_eq_some_iff.mp hmade).1
    rw [h.length, ← hslot] at hlt
    rw [Tree.makes?, if_neg (Nat.ne_of_lt hlt), Option.toList_none, List.append_nil, ht, hsame]
    refine h.takes hstands ?_ hfits
    rw [hslot, hmade, Look.subject, hg, hkey]
  · have hfresh : ∀ i, (q.key, i) ∉ x.tree.cache := fun i hi => by
      rw [Tree.slotFor_of_mem hi] at hlength
      exact absurd hlength (Nat.ne_of_lt (Nat.lt_succ_self _))
    rw [Tree.makes?, if_pos (hslot.trans hnew), Option.toList_some, hg, hkey, ht]
    have hmakes := h.makes hfresh halike hcache hlength (x.tree.slot_slotFor q.key)
    refine hmakes.takes hstands ?_ hfits
    show (x.made ++ [(x.tree.generation, q.key)])[k.slot]? = some (k.generation, k.key)
    rw [hslot, hnew, ← h.length, List.getElem?_concat_length, hg, hkey]

/-- **Every step keeps the slots sound.** -/
theorem Sound.step (h : x.Sound) (hs : x.Step x') : x'.Sound := by
  cases hs with
  | idle => exact h
  | renews t hslots hcache hrises => exact h.renews hslots hcache hrises
  | refused me past hstands q e hrefuses => exact h.refused hstands q hrefuses
  | joins me past hstands q k t hjoin => exact h.joins hstands hjoin
  | finds me past l hstands v hv => exact h.finds hstands hv
  | waits me past l hstands k hk hv hholder t hputs => exact h.waits hstands hk hv hholder hputs
  | asks me past l hstands hv hfree t hputs => exact h.asks hstands hv hfree hputs
  | goesOn me past s s' hstands l hs hs' => exact h.goesOn hstands hs hs'
  | fills me past f hstands a houtcome t hputs => exact h.fills hstands houtcome hputs
  | fails me past f hstands e houtcome t hputs => exact h.fails hstands houtcome hputs
  | checks me past l v hstands r hr => exact h.checks hstands hr

/-- Before anything has happened, there are no slots. -/
theorem sound_empty : Sound ⟨fun _ => ⟨[], .apart⟩, {}, [], []⟩ :=
  ⟨rfl, List.nodup_nil, fun _ ho => (by cases ho), fun _ _ => ⟨fun hk => (by cases hk),
    fun hk => (by cases hk)⟩, fun _ _ hl => (by cases hl), fun _ _ _ hv => (by cases hv),
    fun _ _ ht => (by cases ht), fun _ he => (by cases he), fun _ _ ho => (by cases ho)⟩

end Slots
end DebugHost.Inspection
