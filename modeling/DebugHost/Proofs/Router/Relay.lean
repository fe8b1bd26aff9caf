import DebugHost.Proofs.Orders
import DebugHost.Router
import Mathlib.Logic.Function.Basic
import Mathlib.Tactic.SplitIfs

/-! # A router with all who use it, in any order

A relay is a router with everything that goes on around it: those who publish, those who subscribe, read and
drop subscriptions, and the one who copies events. It changes by moves. A move is what nothing can come
between. So the copying of an event is several moves: the event is taken from those that came in, then nobody
else gets at the list of subscriptions, and they are looked at one after the other. Events may be published,
and subscriptions read and dropped, between any two of them; a subscription can be made until the list is
taken, and when it is given back.

A schedule gives the moves one after the other, and `Relay.after` the relay that they lead to; a move that
cannot be made changes nothing, so that every order of moves is a schedule. What was published and what was
read is kept in fields that no move looks at. All that can happen to one subscription is one of the few things
that `Meets` lists.

A router copies an event in one go (`Router.dispatch`), and all that came in one after the other
(`Router.settle`). Each of these is a sequence of moves that begins and ends with nothing in hand
(`leads_dispatch`, `leads_settle`); what else can be done with a router is a move as it stands. So what holds
after every schedule holds of a router that runs (`schedule_of_leads`). -/

namespace DebugHost

/-- What the one who copies events has in hand. -/
inductive Hand where
  | empty
  /-- An event that has come in. -/
  | taken (e : RoutedEvent)
  /-- An event, and the list of subscriptions, of which the first ones have been looked at. -/
  | sweeping (e : RoutedEvent) (looked : Nat)
deriving DecidableEq

/-- Whether the list of subscriptions is in hand. -/
def Hand.isSweeping : Hand → Bool
  | .sweeping _ _ => true
  | _ => false

/-- The event in hand. -/
def Hand.event : Hand → List RoutedEvent
  | .empty => []
  | .taken e | .sweeping e _ => [e]

/-- The event in hand, unless the subscription `n` has been looked at for it. -/
def Hand.ahead (n : Nat) : Hand → List RoutedEvent
  | .empty => []
  | .taken e => [e]
  | .sweeping e looked => if looked ≤ n then [e] else []

/-- A router with all who use it. -/
structure Relay where
  router : Router := {}
  hand : Hand := .empty
  /-- The events that were accepted, oldest first. -/
  published : List RoutedEvent := []
  /-- The events that the reader of a subscription has read, oldest first. -/
  seen : Nat → List RoutedEvent := fun _ => []

namespace Relay

/-- What may happen next. -/
inductive Move where
  /-- Anybody publishes an event. -/
  | publish (e : RoutedEvent)
  /-- A subscription is made. -/
  | subscribe (topic : Topic)
  /-- The next event of a subscription is read. -/
  | read (n : Nat)
  /-- All events of a subscription are read. -/
  | readAll (n : Nat)
  /-- A subscription is dropped. -/
  | drop (n : Nat)
  /-- The event that came in first is taken. -/
  | take
  /-- With the event in hand the list of subscriptions is taken, the next one looked at, or the list given
  back when all have been looked at. -/
  | look
  /-- No event is copied any more, as nobody can publish one. -/
  | stop
  | addSender
  | dropSender
  | dropRouter
deriving DecidableEq

/-- Whether a subscription can be made. -/
def canJoin (x : Relay) : Bool := x.router.present && !x.hand.isSweeping

/-- Takes over what a reader has read. -/
def note (x : Relay) (n : Nat) (events : List RoutedEvent) (r : Router) : Relay :=
  { x with router := r, seen := Function.update x.seen n (x.seen n ++ events) }

/-- An event is published, if it is accepted. -/
def publish (x : Relay) (e : RoutedEvent) : Relay :=
  match x.router.publish e with
  | (true, r) => { x with router := r, published := x.published ++ [e] }
  | (false, r) => { x with router := r }

/-- A subscription is made, unless the list of subscriptions is in hand. -/
def subscribe (x : Relay) (topic : Topic) : Relay :=
  if x.canJoin then { x with router := (x.router.subscribe topic).2 } else x

/-- The next event of a subscription is read. -/
def read (x : Relay) (n : Nat) : Relay :=
  match x.router.read n with
  | (.event e, r) => x.note n [e] r
  | (_, r) => { x with router := r }

/-- The event that came in first is taken. -/
def take (x : Relay) : Relay :=
  match x.hand, x.router.inbound with
  | .empty, e :: rest => { x with router := { x.router with inbound := rest }, hand := .taken e }
  | _, _ => x

/-- The event in hand is copied further. -/
def look (x : Relay) : Relay :=
  match x.hand with
  | .empty => x
  | .taken e => { x with hand := .sweeping e 0 }
  | .sweeping e k =>
    if k < x.router.subscriptions.length then
      { x with router := x.router.modify k (Router.deliver e), hand := .sweeping e (k + 1) }
    else { x with hand := .empty }

/-- Whether everything is copied, and nobody can publish any more. -/
def isDone (x : Relay) : Bool := x.hand = .empty && x.router.inbound.isEmpty && !x.router.isOpen

/-- The relay after a move. -/
def move (x : Relay) : Move → Relay
  | .publish e => x.publish e
  | .subscribe topic => x.subscribe topic
  | .read n => x.read n
  | .readAll n => x.note n (x.router.readAll n).1 (x.router.readAll n).2
  | .drop n => { x with router := x.router.drop n }
  | .take => x.take
  | .look => x.look
  | .stop => if x.isDone then { x with router := { x.router with running := false } } else x
  | .addSender => if x.router.isOpen then { x with router := x.router.addSender } else x
  | .dropSender => { x with router := x.router.dropSender }
  | .dropRouter => { x with router := x.router.dropRouter }

/-- The relay after the first `n` moves of a schedule, of a new router. -/
def after (σ : Nat → Move) (n : Nat) : Relay := reached move {} σ n

theorem after_succ (σ : Nat → Move) (n : Nat) : after σ (n + 1) = (after σ n).move (σ n) := rfl

variable {x : Relay} {m : Move} {n : Nat} {s s' : Subscription} {e : RoutedEvent} {topic : Topic}

/-- The subscription `n`. -/
def sub? (x : Relay) (n : Nat) : Option Subscription := x.router.subscriptions[n]?

/-- Number of subscriptions that were made. -/
def count (x : Relay) : Nat := x.router.subscriptions.length

/-- All that the subscription `n` was given, read or not. -/
def given (x : Relay) (n : Nat) : List RoutedEvent := x.seen n ++ ((x.sub? n).map (·.queue)).getD []

/-- The events that the subscription `n` has not been looked at for. -/
def waiting (x : Relay) (n : Nat) : List RoutedEvent := x.hand.ahead n ++ x.router.inbound

/-- The events that are not copied to all subscriptions. -/
def backlog (x : Relay) : List RoutedEvent := x.hand.event ++ x.router.inbound

/-- The events that a move publishes. -/
def news (x : Relay) : Move → List RoutedEvent
  | .publish e => if x.router.isOpen then [e] else []
  | _ => []

/-! ### All that a move can do -/

/-- All that a move can do. -/
inductive Change (x : Relay) : Move → Relay → Prop where
  | idle {m : Move} (hnews : x.news m = []) : Change x m x
  | publishes (e : RoutedEvent) (ho : x.router.isOpen = true) :
    Change x (.publish e) { x with
      router := { x.router with inbound := x.router.inbound ++ [e] }, published := x.published ++ [e] }
  | joins (topic : Topic) (hj : x.canJoin = true) :
    Change x (.subscribe topic) { x with router := (x.router.subscribe topic).2 }
  | reads {m : Move} {n : Nat} {s : Subscription} {events rest : List RoutedEvent}
    (hm : m = .read n ∨ m = .readAll n) (hs : x.sub? n = some s) (hq : s.queue = events ++ rest) :
    Change x m (x.note n events (x.router.modify n fun s => { s with queue := rest }))
  | drops (n : Nat) : Change x (.drop n) { x with router := x.router.drop n }
  | takes {e : RoutedEvent} {rest : List RoutedEvent} (hh : x.hand = .empty)
    (hi : x.router.inbound = e :: rest) :
    Change x .take { x with router := { x.router with inbound := rest }, hand := .taken e }
  | begins {e : RoutedEvent} (hh : x.hand = .taken e) : Change x .look { x with hand := .sweeping e 0 }
  | offers {e : RoutedEvent} {k : Nat} (hh : x.hand = .sweeping e k) (hk : k < x.count) :
    Change x .look { x with router := x.router.modify k (Router.deliver e), hand := .sweeping e (k + 1) }
  | ends {e : RoutedEvent} {k : Nat} (hh : x.hand = .sweeping e k) (hk : x.count ≤ k) :
    Change x .look { x with hand := .empty }
  | stops (hd : x.isDone = true) : Change x .stop { x with router := { x.router with running := false } }
  | staff {m : Move} {r : Router} (hnews : x.news m = []) (hi : r.inbound = x.router.inbound)
    (hs : r.subscriptions = x.router.subscriptions) (hr : r.running = x.router.running)
    (ho : r.isOpen = true → x.router.isOpen = true) : Change x m { x with router := r }

theorem note_none (hs : x.sub? n = none) (f : Subscription → Subscription) :
    x.note n [] (x.router.modify n f) = x := by
  have hrouter : x.router.modify n f = x.router := by
    unfold Router.modify
    rw [List.modify_eq_self (by simpa [sub?] using hs)]
  unfold note
  rw [hrouter, List.append_nil, Function.update_eq_self]

theorem change_publish (x : Relay) (e : RoutedEvent) : Change x (.publish e) (x.publish e) := by
  unfold publish Router.publish
  by_cases ho : x.router.isOpen = true
  · rw [if_pos ho]
    exact .publishes e ho
  · rw [if_neg ho]
    exact .idle (if_neg ho)

theorem read_some {rest : List RoutedEvent} (hs : x.sub? n = some s) (hq : s.queue = e :: rest) :
    x.read n = x.note n [e] (x.router.modify n fun s => { s with queue := rest }) := by
  unfold read Router.read
  rw [show x.router.subscriptions[n]? = some s from hs]
  simp only [hq]

theorem read_none (h : ∀ s, x.sub? n = some s → s.queue = []) : x.read n = x := by
  unfold read Router.read
  cases hs : x.router.subscriptions[n]? with
  | none => rfl
  | some s =>
    simp only [h s hs]
    split_ifs <;> rfl

/-- Whether there is an event to be read. -/
theorem queue_cases (x : Relay) (n : Nat) : (∀ s, x.sub? n = some s → s.queue = []) ∨
    ∃ s e rest, x.sub? n = some s ∧ s.queue = e :: rest := by
  cases hs : x.sub? n with
  | none => exact Or.inl fun s h => nomatch h
  | some s =>
    cases hq : s.queue with
    | nil =>
      refine Or.inl fun s' h => ?_
      cases h
      exact hq
    | cons e rest => exact Or.inr ⟨s, e, rest, rfl, hq⟩

theorem change_read (x : Relay) (n : Nat) : Change x (.read n) (x.read n) := by
  rcases queue_cases x n with h | ⟨s, e, rest, hs, hq⟩
  · rw [read_none h]
    exact .idle rfl
  · rw [read_some hs hq]
    exact .reads (Or.inl rfl) hs hq

theorem change_readAll (x : Relay) (n : Nat) : Change x (.readAll n) (x.move (.readAll n)) := by
  show Change x _ (x.note n (((x.sub? n).map (·.queue)).getD []) (x.router.modify n _))
  cases hs : x.sub? n with
  | none =>
    rw [show ((none : Option Subscription).map (·.queue)).getD [] = [] from rfl, note_none hs]
    exact .idle rfl
  | some s => exact .reads (Or.inr rfl) hs (List.append_nil _).symm

theorem change_look (x : Relay) : Change x .look x.look := by
  unfold look
  cases hh : x.hand with
  | empty => exact .idle rfl
  | taken e => exact .begins hh
  | sweeping e k =>
    show Change x _ (if k < x.count then _ else _)
    split_ifs with hk
    · exact .offers hh hk
    · exact .ends hh (Nat.le_of_not_lt hk)

/-- **Every move is a change.** -/
theorem change_move (x : Relay) (m : Move) : Change x m (x.move m) := by
  cases m with
  | publish e => exact change_publish x e
  | subscribe topic =>
    show Change x _ (x.subscribe topic)
    unfold subscribe
    split_ifs with hj
    · exact .joins topic hj
    · exact .idle rfl
  | read n => exact change_read x n
  | readAll n => exact change_readAll x n
  | drop n => exact .drops n
  | take =>
    show Change x _ x.take
    unfold take
    split
    · next e rest hh hi => exact .takes hh hi
    · exact .idle rfl
  | look => exact change_look x
  | stop =>
    show Change x _ (if x.isDone then _ else x)
    split_ifs with hd
    · exact .stops hd
    · exact .idle rfl
  | addSender =>
    show Change x _ (if x.router.isOpen then _ else x)
    split_ifs with ho
    · exact .staff rfl rfl rfl rfl fun _ => ho
    · exact .idle rfl
  | dropSender =>
    refine .staff rfl rfl rfl rfl fun ho => ?_
    show (x.router.present || decide (0 < x.router.senders)) = true
    have ho : (x.router.present || decide (0 < x.router.senders - 1)) = true := ho
    simp only [Bool.or_eq_true, decide_eq_true_eq] at ho ⊢
    exact ho.imp_right fun hs => Nat.lt_of_lt_of_le hs (Nat.sub_le ..)
  | dropRouter =>
    refine .staff rfl rfl rfl rfl fun ho => ?_
    have ho : (false || decide (0 < x.router.senders)) = true := ho
    exact Bool.or_eq_true_iff.mpr (Or.inr ho)

variable {y : Relay}

/-- What is published stays so, and the news come behind it. -/
theorem Change.published (hc : Change x m y) : y.published = x.published ++ x.news m := by
  cases hc with
  | idle hnews => rw [hnews, List.append_nil]
  | publishes e ho => exact congrArg (x.published ++ ·) (if_pos ho).symm
  | reads hm hs hq => rcases hm with rfl | rfl <;> exact (List.append_nil _).symm
  | staff hnews => rw [hnews, List.append_nil]
  | _ => exact (List.append_nil _).symm

/-! ### What happens to a subscription -/

/-- All that can happen to a subscription. -/
inductive Meets (x : Relay) (m : Move) (y : Relay) (n : Nat) (s : Subscription) : Subscription → Prop where
  | same (hseen : y.seen n = x.seen n) (hw : y.waiting n = x.waiting n ++ x.news m) : Meets x m y n s s
  | read {events rest : List RoutedEvent} (hq : s.queue = events ++ rest)
    (hseen : y.seen n = x.seen n ++ events) (hw : y.waiting n = x.waiting n ++ x.news m) :
    Meets x m y n s { s with queue := rest }
  | dropped (hm : m = .drop n) : Meets x m y n s { s with live := false, queue := [] }
  | offered {e : RoutedEvent} (hm : m = .look) (hh : x.hand = .sweeping e n)
    (hseen : y.seen n = x.seen n) (hw : x.waiting n = e :: y.waiting n) :
    Meets x m y n s (Router.deliver e s)

theorem sub?_modify (x : Relay) (k n : Nat) (f : Subscription → Subscription) :
    (x.router.modify k f).subscriptions[n]? = if k = n then (x.sub? n).map f else x.sub? n := by
  unfold Router.modify sub?
  rw [List.getElem?_modify]
  split_ifs
  · rfl
  · exact Option.map_id'

/-- **A subscription stays, and one of these things happens to it.** -/
theorem Change.meets (hc : Change x m y) (hs : x.sub? n = some s) :
    ∃ s', y.sub? n = some s' ∧ Meets x m y n s s' := by
  cases hc with
  | idle hnews => exact ⟨s, hs, .same rfl (by rw [hnews, List.append_nil])⟩
  | publishes e ho =>
    refine ⟨s, hs, .same rfl ?_⟩
    show x.hand.ahead n ++ (x.router.inbound ++ [e]) = _ ++ if x.router.isOpen then [e] else []
    rw [if_pos ho, ← List.append_assoc]
    rfl
  | joins topic hj =>
    have hn : n < x.router.subscriptions.length := (List.getElem?_eq_some_iff.mp hs).1
    exact ⟨s, (List.getElem?_append_left hn).trans hs, .same rfl (List.append_nil _).symm⟩
  | @reads _ k q events rest hm hq hqueue =>
    have hnews : x.news m = [] := by rcases hm with rfl | rfl <;> rfl
    have hw : x.waiting n = x.waiting n ++ x.news m := by rw [hnews, List.append_nil]
    by_cases hk : k = n
    · subst hk
      cases hs.symm.trans hq
      refine ⟨{ s with queue := rest }, (sub?_modify x k k _).trans ?_,
        .read hqueue (Function.update_self ..) hw⟩
      rw [if_pos rfl, hs]
      rfl
    · refine ⟨s, ((sub?_modify x k n _).trans (if_neg hk)).trans hs, .same ?_ hw⟩
      exact Function.update_of_ne (Ne.symm hk) ..
  | drops k =>
    by_cases hk : k = n
    · subst hk
      refine ⟨_, (sub?_modify x k k _).trans ?_, .dropped rfl⟩
      rw [if_pos rfl, hs]
      rfl
    · exact ⟨s, ((sub?_modify x k n _).trans (if_neg hk)).trans hs, .same rfl (List.append_nil _).symm⟩
  | @takes e rest hh hi =>
    refine ⟨s, hs, .same rfl ?_⟩
    show [e] ++ rest = x.hand.ahead n ++ x.router.inbound ++ []
    rw [hh, hi]
    exact (List.append_nil _).symm
  | @begins e hh =>
    refine ⟨s, hs, .same rfl ?_⟩
    show (if 0 ≤ n then [e] else []) ++ x.router.inbound = x.hand.ahead n ++ x.router.inbound ++ []
    rw [hh, if_pos (Nat.zero_le n), List.append_nil]
    rfl
  | @offers e k hh hk =>
    by_cases hkn : k = n
    · subst hkn
      refine ⟨_, (sub?_modify x k k _).trans ?_, .offered rfl hh rfl ?_⟩
      · rw [if_pos rfl, hs]
        rfl
      · show x.hand.ahead k ++ x.router.inbound = e :: ((if k + 1 ≤ k then [e] else []) ++ x.router.inbound)
        rw [hh, if_neg (Nat.not_succ_le_self k)]
        exact congrArg (· ++ x.router.inbound) (if_pos (Nat.le_refl k))
    · refine ⟨s, ((sub?_modify x k n _).trans (if_neg hkn)).trans hs, .same rfl ?_⟩
      show (if k + 1 ≤ n then [e] else []) ++ x.router.inbound = x.hand.ahead n ++ x.router.inbound ++ []
      rw [hh, List.append_nil]
      exact congrArg (· ++ x.router.inbound) (if_congr (by omega) rfl rfl)
  | @ends e k hh hk =>
    have hn : n < x.count := (List.getElem?_eq_some_iff.mp hs).1
    refine ⟨s, hs, .same rfl ?_⟩
    show [] ++ x.router.inbound = x.hand.ahead n ++ x.router.inbound ++ []
    rw [hh, List.append_nil]
    exact congrArg (· ++ x.router.inbound) (if_neg (by omega)).symm
  | stops hd => exact ⟨s, hs, .same rfl (List.append_nil _).symm⟩
  | @staff _ r hnews hi hsubs hr ho =>
    refine ⟨s, ?_, .same rfl ?_⟩
    · show r.subscriptions[n]? = _
      rw [hsubs]
      exact hs
    · show x.hand.ahead n ++ r.inbound = x.hand.ahead n ++ x.router.inbound ++ _
      rw [hi, hnews, List.append_nil]

/-! ### New subscriptions -/

/-- A subscription that is there after a change, and was not there before, was made by it. -/
theorem Change.joined (hc : Change x m y) (hx : x.sub? n = none) (hs : y.sub? n = some s) :
    ∃ topic, m = .subscribe topic ∧ x.canJoin = true ∧ n = x.count ∧
      s = { topic, served := x.router.running } ∧ y = { x with router := (x.router.subscribe topic).2 } := by
  have hmodify : ∀ k f, (x.router.modify k f).subscriptions[n]? = none := fun k f => by
    rw [sub?_modify, hx]
    exact ite_self none
  cases hc with
  | joins topic hj =>
    have hn : x.count ≤ n := List.getElem?_eq_none_iff.mp hx
    have hs : (x.router.subscriptions ++ [{ topic, served := x.router.running }])[n]? = some s := hs
    rw [List.getElem?_append_right hn, List.getElem?_singleton] at hs
    split_ifs at hs with h0
    cases hs
    exact ⟨topic, rfl, hj, by unfold count at hn ⊢; omega, rfl, rfl⟩
  | reads hm hq hqueue => cases (hmodify _ _).symm.trans hs
  | drops k => cases (hmodify _ _).symm.trans hs
  | offers hh hk => cases (hmodify _ _).symm.trans hs
  | staff hnews hi hsubs hr ho =>
    have hs : _ = some s := (congrArg (·[n]?) hsubs).symm.trans hs
    cases hx.symm.trans hs
  | _ => cases hx.symm.trans hs

/-! ### What always holds -/

/-- What holds of a relay whatever happens. -/
structure Sound (x : Relay) : Prop where
  /-- Events are copied as long as somebody can publish one. -/
  copies : x.router.isOpen = true → x.router.running = true
  /-- A subscription that was not dropped is served. -/
  served : ∀ n s, x.sub? n = some s → s.live = true → s.served = true
  /-- Nobody reads a subscription that was not made. -/
  unread : ∀ n, x.sub? n = none → x.seen n = []
  /-- Only subscriptions that were made are looked at. -/
  looked : ∀ e k, x.hand = .sweeping e k → k ≤ x.count
  /-- What is not copied yet was published last. -/
  late : x.backlog <:+ x.published

theorem sound_new : Sound {} where
  copies _ := rfl
  served _ _ h _ := nomatch h
  unread _ _ := rfl
  looked _ _ h := nomatch h
  late := List.suffix_rfl

theorem Meets.served (h : Meets x m y n s s') (hs : s.live = true → s.served = true)
    (hl : s'.live = true) : s'.served = true := by
  cases h with
  | same hseen hw => exact hs hl
  | read hq hseen hw => exact hs hl
  | dropped hm => cases hl
  | @offered e hm hh hseen hw =>
    unfold Router.deliver at hl ⊢
    split_ifs at hl ⊢ with hserved hlive
    · exact hs hlive
    · exact absurd hl hlive
    · exact hs hl

theorem Change.sound (hc : Change x m y) (h : Sound x) : Sound y where
  copies ho := by
    cases hc with
    | stops hd =>
      -- nobody can publish any more
      have hclosed : x.router.isOpen = true := ho
      unfold isDone at hd
      rw [hclosed] at hd
      cases hd.symm.trans (Bool.and_false _)
    | staff hnews hi hsubs hr hopen => exact hr.trans (h.copies (hopen ho))
    | _ => exact h.copies ho
  served k q hq hl := by
    cases hx : x.sub? k with
    | some s =>
      obtain ⟨s', hs', hmeets⟩ := hc.meets hx
      cases hs'.symm.trans hq
      exact hmeets.served (h.served k s hx) hl
    | none =>
      obtain ⟨topic, rfl, hj, -, rfl, -⟩ := hc.joined hx hq
      exact h.copies (Bool.or_eq_true_iff.mpr (Or.inl (Bool.and_eq_true_iff.mp hj).1))
  unread k hk := by
    have hx : x.sub? k = none := by
      cases hx : x.sub? k with
      | none => rfl
      | some s =>
        obtain ⟨s', hs', -⟩ := hc.meets hx
        cases hs'.symm.trans hk
    cases hc with
    | @reads _ i s events rest hm hs hq =>
      refine (Function.update_of_ne ?_ ..).trans (h.unread k hx)
      rintro rfl
      cases hx.symm.trans hs
    | _ => exact h.unread k hx
  looked e k hh := by
    have hmodify : ∀ i f, (x.router.modify i f).subscriptions.length = x.count :=
      fun i f => List.length_modify ..
    cases hc with
    | joins topic hj =>
      refine Nat.le_trans (h.looked e k hh) ?_
      show x.count ≤ (x.router.subscriptions ++ [_]).length
      rw [List.length_append]
      exact Nat.le_add_right ..
    | reads hm hs hq => exact Nat.le_trans (h.looked e k hh) (Nat.le_of_eq (hmodify ..).symm)
    | drops i => exact Nat.le_trans (h.looked e k hh) (Nat.le_of_eq (hmodify ..).symm)
    | begins hx =>
      cases hh
      exact Nat.zero_le _
    | offers hx hlt =>
      cases hh
      exact Nat.le_trans hlt (Nat.le_of_eq (hmodify ..).symm)
    | staff hnews hi hsubs hr ho =>
      exact Nat.le_trans (h.looked e k hh) (Nat.le_of_eq (congrArg List.length hsubs).symm)
    | takes hx hi => cases hh
    | ends hx hlt => cases hh
    | _ => exact h.looked e k hh
  late := by
    cases hc with
    | publishes e ho =>
      obtain ⟨copied, hcopied⟩ := h.late
      refine ⟨copied, ?_⟩
      show copied ++ (x.hand.event ++ (x.router.inbound ++ [e])) = x.published ++ [e]
      rw [← hcopied]
      unfold backlog
      simp only [List.append_assoc]
    | @takes e rest hh hi =>
      refine List.IsSuffix.trans ?_ h.late
      show [e] ++ rest <:+ x.hand.event ++ x.router.inbound
      rw [hh, hi]
      exact List.suffix_rfl
    | begins hh =>
      refine List.IsSuffix.trans ?_ h.late
      unfold backlog
      rw [hh]
      exact List.suffix_rfl
    | offers hh hlt =>
      refine List.IsSuffix.trans ?_ h.late
      unfold backlog
      rw [hh]
      exact List.suffix_rfl
    | ends hh hlt => exact (List.suffix_append ..).trans h.late
    | staff hnews hi hsubs hr ho =>
      show x.hand.event ++ _ <:+ x.published
      rw [hi]
      exact h.late
    | _ => exact h.late

theorem sound_after (σ : Nat → Move) (n : Nat) : Sound (after σ n) := by
  induction n with
  | zero => exact sound_new
  | succ n ih => exact (change_move _ (σ n)).sound ih

end Relay
end DebugHost

/-! ### Copying an event is such an order -/

namespace DebugHost.Relay

variable {x : Relay} {e : RoutedEvent} {k : Nat}

/-- Subscriptions of which all but the first ones have been looked at. -/
def swept (e : RoutedEvent) (k : Nat) (subs : List Subscription) : List Subscription :=
  subs.take k ++ (subs.drop k).map (Router.deliver e)

theorem swept_modify (e : RoutedEvent) {k : Nat} {subs : List Subscription} (hk : k < subs.length) :
    swept e (k + 1) (subs.modify k (Router.deliver e)) = swept e k subs := by
  induction subs generalizing k with
  | nil => cases hk
  | cons s subs ih =>
    cases k with
    | zero => rfl
    | succ k => exact congrArg (s :: ·) (ih (Nat.lt_of_succ_lt_succ hk))

/-- The relay when the event in hand has been copied. -/
def copied (x : Relay) (e : RoutedEvent) (k : Nat) : Relay :=
  { x with
    router := { x.router with subscriptions := swept e k x.router.subscriptions }
    hand := .empty }

/-- The subscriptions are looked at one after the other. -/
theorem leads_copied (hh : x.hand = .sweeping e k) (hk : k ≤ x.count) : Leads move x (x.copied e k) := by
  induction hd : x.count - k generalizing x k with
  | zero =>
    have hall : k = x.router.subscriptions.length := Nat.le_antisymm hk (Nat.sub_eq_zero_iff_le.mp hd)
    have hlook : x.move .look = x.copied e k := by
      show x.look = _
      unfold look copied swept
      rw [hh]
      subst hall
      simp
    exact hlook ▸ Leads.one x Move.look
  | succ d ih =>
    have hlt : k < x.router.subscriptions.length := by
      show k < x.count
      omega
    have hlook : x.move .look =
        { x with router := x.router.modify k (Router.deliver e), hand := .sweeping e (k + 1) } := by
      show x.look = _
      unfold look
      rw [hh]
      exact if_pos hlt
    have hcount : (x.move .look).count = x.count := by
      rw [hlook]
      exact List.length_modify ..
    have hrest := ih (x := x.move .look) (by rw [hlook]) (by rw [hcount]; exact hlt) (by rw [hcount]; omega)
    have hend : (x.move .look).copied e (k + 1) = x.copied e k := by
      rw [hlook]
      unfold copied Router.modify
      simp only [swept_modify e hlt]
    exact (Leads.one x .look).trans (hend ▸ hrest)

/-- **Copying an event** is a sequence of moves. -/
theorem leads_dispatch (hh : x.hand = .empty) : Leads move x { x with router := x.router.dispatch.1 } := by
  unfold Router.dispatch
  cases hi : x.router.inbound with
  | nil => exact .refl
  | cons e rest =>
    have htake : x.move .take = { x with router := { x.router with inbound := rest }, hand := .taken e } := by
      show x.take = _
      unfold take
      rw [hh, hi]
    have hlook : (x.move .take).move .look =
        { x with router := { x.router with inbound := rest }, hand := .sweeping e 0 } := by
      rw [htake]
      rfl
    have hcopied := leads_copied (x := (x.move .take).move .look) (e := e) (k := 0)
      (by rw [hlook]) (Nat.zero_le _)
    have hend : ((x.move .take).move .look).copied e 0 = { x with
        router := { x.router with
          inbound := rest, subscriptions := x.router.subscriptions.map (Router.deliver e) } } := by
      rw [hlook]
      unfold copied
      rw [hh]
      rfl
    exact ((Leads.one x .take).trans (Leads.one _ .look)).trans (hend ▸ hcopied)

theorem leads_dispatchAll (fuel : Nat) (hh : x.hand = .empty) :
    Leads move x { x with router := (Router.dispatchAll fuel x.router).1 } := by
  induction fuel generalizing x with
  | zero => exact .refl
  | succ fuel ih =>
    unfold Router.dispatchAll
    split
    · exact .refl
    · exact (leads_dispatch hh).trans (ih (x := { x with router := x.router.dispatch.1 }) hh)

/-- Enough turns copy everything. -/
theorem inbound_dispatchAll (r : Router) {fuel : Nat} (hfuel : r.inbound.length ≤ fuel) :
    (Router.dispatchAll fuel r).1.inbound = [] := by
  induction fuel generalizing r with
  | zero => exact List.eq_nil_of_length_eq_zero (Nat.le_zero.mp hfuel)
  | succ fuel ih =>
    unfold Router.dispatchAll
    cases hi : r.inbound with
    | nil => exact hi
    | cons e rest =>
      have hrest : r.dispatch.1.inbound = rest := by
        unfold Router.dispatch
        rw [hi]
      rw [hi] at hfuel
      exact ih r.dispatch.1 (hrest ▸ Nat.le_of_succ_le_succ hfuel)

/-- **Copying all that came in**, and ending if nobody can publish any more, is a sequence of moves, after
which everything is copied. -/
theorem leads_settle (hh : x.hand = .empty) : Leads move x { x with router := x.router.settle.1 } ∧
    ({ x with router := x.router.settle.1 } : Relay).backlog = [] := by
  let y : Relay := { x with router := (x.router.dispatchAll x.router.inbound.length).1 }
  have hall : Leads move x y := leads_dispatchAll x.router.inbound.length hh
  have hinbound : y.router.inbound = [] := inbound_dispatchAll x.router (Nat.le_refl _)
  have hbacklog : y.hand.event ++ y.router.inbound = [] := by
    rw [hinbound]
    exact congrArg (Hand.event · ++ []) hh
  show Leads move x { x with router := (if y.router.running && !y.router.isOpen then
    ({ y.router with running := false }, _) else (y.router, _) : Router × List Log.Record).1 } ∧
    x.hand.event ++ (if y.router.running && !y.router.isOpen then
      ({ y.router with running := false }, _) else (y.router, _) : Router × List Log.Record).1.inbound = []
  split_ifs with hend
  · have hdone : y.isDone = true := by
      unfold isDone
      rw [hinbound, (Bool.and_eq_true_iff.mp hend).2, show y.hand = .empty from hh]
      rfl
    have hstop : y.move .stop = { y with router := { y.router with running := false } } := if_pos hdone
    exact ⟨hstop ▸ hall.tail Move.stop, hbacklog⟩
  · exact ⟨hall, hbacklog⟩

/-- A router that has come somewhere by moves is one after a schedule. -/
theorem schedule_of_leads (h : Leads move {} x) : ∃ σ n, after σ n = x := h.schedule .stop

end DebugHost.Relay
