import DebugHost.Proofs.Router.Relay

/-! # One subscription by itself

A subscription does not notice the others. What is left of a relay when all subscriptions but one are taken
away (`Relay.solo`) changes as a relay does, by those moves that concern the one subscription (`Relay.own`):
whether the others are there, are read or are dropped makes no difference (`solo_move`). So every subscription
gets what it would get if it were alone with the same events (`solo_after`). -/

namespace DebugHost

/-- What is in hand, for the one who looks at the subscription `n` only. -/
def Hand.solo (n : Nat) : Hand → Hand
  | .sweeping e looked => .sweeping e (if looked ≤ n then 0 else 1)
  | hand => hand

namespace Relay

variable {x : Relay} {n : Nat} {σ σ' : Nat → Move}

/-- What is left of what was read when all subscriptions but `n` are taken away. -/
def soloSeen (seen : Nat → List RoutedEvent) (n : Nat) : Nat → List RoutedEvent :=
  fun k => if k = 0 then seen n else []

/-- What is left of a relay when all subscriptions but `n` are taken away. -/
def solo (x : Relay) (n : Nat) : Relay where
  router := { x.router with subscriptions := (x.sub? n).toList }
  hand := x.hand.solo n
  published := x.published
  seen := soloSeen x.seen n

/-- What a move is for the subscription `n`, unless it is about other subscriptions. -/
def own (x : Relay) (n : Nat) : Move → Option Move
  | .subscribe topic => if x.count = n then some (.subscribe topic) else none
  | .read k => if k = n then some (.read 0) else none
  | .readAll k => if k = n then some (.readAll 0) else none
  | .drop k => if k = n then some (.drop 0) else none
  | .look =>
    match x.hand with
    | .sweeping _ k => if k < x.count ∧ k ≠ n then none else some .look
    | _ => some .look
  | m => some m

/-- The moves of a schedule that concern the subscription `n`. -/
def owns (σ : Nat → Move) (n : Nat) : Nat → List Move
  | 0 => []
  | k + 1 => owns σ n k ++ (own (after σ k) n (σ k)).toList

/-! ### What is left of the parts -/

theorem solo_sub? (x : Relay) (n : Nat) : (x.solo n).router.subscriptions[0]? = x.sub? n := by
  show (x.sub? n).toList[0]? = x.sub? n
  cases x.sub? n <;> rfl

theorem solo_count (x : Relay) (n : Nat) : (x.solo n).count = if n < x.count then 1 else 0 := by
  show (x.router.subscriptions[n]?).toList.length = _
  split_ifs with h
  · rw [List.getElem?_eq_getElem h]
    rfl
  · rw [List.getElem?_eq_none (Nat.le_of_not_lt h)]
    rfl

theorem solo_isSweeping (h : Hand) (n : Nat) : (h.solo n).isSweeping = h.isSweeping := by
  cases h <;> rfl

theorem solo_canJoin (x : Relay) (n : Nat) : (x.solo n).canJoin = x.canJoin :=
  congrArg (x.router.present && !·) (solo_isSweeping x.hand n)

theorem solo_isDone (x : Relay) (n : Nat) : (x.solo n).isDone = x.isDone := by
  have hempty : decide (x.hand.solo n = .empty) = decide (x.hand = .empty) := by cases x.hand <;> rfl
  exact congrArg (· && x.router.inbound.isEmpty && !x.router.isOpen) hempty

/-- A change of the subscription itself. -/
theorem solo_modify (x : Relay) (n : Nat) (f : Subscription → Subscription) :
    { x with router := x.router.modify n f }.solo n =
      { x.solo n with router := (x.solo n).router.modify 0 f } := by
  have hsub : ({ x with router := x.router.modify n f } : Relay).sub? n = (x.sub? n).map f :=
    (sub?_modify x n n f).trans (if_pos rfl)
  unfold solo
  rw [hsub]
  cases x.sub? n <;> rfl

/-- A change of another one. -/
theorem solo_other (x : Relay) {k : Nat} (hk : k ≠ n) (f : Subscription → Subscription) :
    { x with router := x.router.modify k f }.solo n = x.solo n := by
  have hsub : ({ x with router := x.router.modify k f } : Relay).sub? n = x.sub? n :=
    (sub?_modify x k n f).trans (if_neg hk)
  unfold solo
  rw [hsub]
  rfl

theorem soloSeen_note (seen : Nat → List RoutedEvent) (n : Nat) (events : List RoutedEvent) :
    soloSeen (Function.update seen n (seen n ++ events)) n =
      Function.update (soloSeen seen n) 0 (soloSeen seen n 0 ++ events) := by
  funext k
  unfold soloSeen
  rw [Function.update_self, Function.update_apply, if_pos rfl]
  split_ifs <;> rfl

theorem soloSeen_other (seen : Nat → List RoutedEvent) {k : Nat} (hk : k ≠ n) (events : List RoutedEvent) :
    soloSeen (Function.update seen k events) n = soloSeen seen n := by
  unfold soloSeen
  rw [Function.update_of_ne (Ne.symm hk)]

theorem solo_note_eq (x : Relay) (n k : Nat) (events : List RoutedEvent) (r : Router) :
    (x.note k events r).solo n =
      { ({ x with router := r } : Relay).solo n with
        seen := soloSeen (Function.update x.seen k (x.seen k ++ events)) n } := rfl

theorem solo_note (x : Relay) (n : Nat) (events : List RoutedEvent) (f : Subscription → Subscription) :
    (x.note n events (x.router.modify n f)).solo n =
      (x.solo n).note 0 events ((x.solo n).router.modify 0 f) := by
  rw [solo_note_eq, solo_modify, soloSeen_note]
  rfl

theorem solo_note_other (x : Relay) {k : Nat} (hk : k ≠ n) (events : List RoutedEvent)
    (f : Subscription → Subscription) : (x.note k events (x.router.modify k f)).solo n = x.solo n := by
  rw [solo_note_eq, solo_other x hk, soloSeen_other x.seen hk]
  rfl

/-! ### What is left of a move -/

theorem solo_publish (x : Relay) (n : Nat) (e : RoutedEvent) :
    (x.publish e).solo n = (x.solo n).publish e := by
  have hopen : (x.solo n).router.isOpen = x.router.isOpen := rfl
  unfold publish Router.publish
  rw [hopen]
  split_ifs <;> rfl

theorem solo_read (x : Relay) (n : Nat) : (x.read n).solo n = (x.solo n).read 0 := by
  rcases queue_cases x n with h | ⟨s, e, rest, hs, hq⟩
  · rw [read_none h, read_none fun s hs => h s ((solo_sub? x n).symm.trans hs)]
  · rw [read_some hs hq, solo_note, read_some ((solo_sub? x n).trans hs) hq]

theorem solo_read_other (x : Relay) {k : Nat} (hk : k ≠ n) : (x.read k).solo n = x.solo n := by
  rcases queue_cases x k with h | ⟨s, e, rest, hs, hq⟩
  · rw [read_none h]
  · rw [read_some hs hq, solo_note_other x hk]

theorem readAll_eq (x : Relay) (n : Nat) : x.move (.readAll n) =
    x.note n (((x.sub? n).map (·.queue)).getD []) (x.router.modify n fun s => { s with queue := [] }) := rfl

theorem solo_subscribe (x : Relay) (n : Nat) (topic : Topic) : (x.subscribe topic).solo n =
    if x.count = n then (x.solo n).subscribe topic else x.solo n := by
  unfold subscribe
  rw [solo_canJoin]
  split_ifs with hj hn hn
  · subst hn
    have hnone : x.router.subscriptions[x.router.subscriptions.length]? = none :=
      List.getElem?_eq_none (Nat.le_refl _)
    unfold solo sub? count Router.subscribe
    simp only [List.getElem?_concat_length, hnone]
    rfl
  · have hsub : (x.router.subscriptions ++ [({ topic, served := x.router.running } : Subscription)])[n]? =
        x.router.subscriptions[n]? := by
      rw [List.getElem?_append]
      split_ifs with hlt
      · rfl
      · rw [List.getElem?_eq_none (by simp only [List.length_singleton]; unfold count at hn; omega),
          List.getElem?_eq_none (by omega)]
    unfold solo sub? Router.subscribe
    simp only [hsub]
  · rfl
  · rfl

theorem solo_take (x : Relay) (n : Nat) : x.take.solo n = (x.solo n).take := by
  have hhand : (x.solo n).hand = x.hand.solo n := rfl
  have hinbound : (x.solo n).router.inbound = x.router.inbound := rfl
  unfold take
  rw [hhand, hinbound]
  cases x.hand <;> cases x.router.inbound <;> rfl

theorem solo_look (x : Relay) (n : Nat) (hk : ∀ e k, x.hand = .sweeping e k → k ≤ x.count) :
    x.look.solo n = (own x n .look).elim (x.solo n) (x.solo n).move := by
  cases hh : x.hand with
  | empty =>
    unfold own look solo
    simp only [hh]
    rfl
  | taken e =>
    unfold own look solo
    simp only [hh]
    rfl
  | sweeping e k =>
    have hlook : x.look = if k < x.count then
        { x with router := x.router.modify k (Router.deliver e), hand := .sweeping e (k + 1) }
      else { x with hand := .empty } := by
      unfold look
      rw [hh]
      rfl
    have hown : own x n .look = if k < x.count ∧ k ≠ n then none else some .look := by
      unfold own
      rw [hh]
    have hsolo : (x.solo n).look = if (if k ≤ n then 0 else 1) < (x.solo n).count then
        { x.solo n with
          router := (x.solo n).router.modify (if k ≤ n then 0 else 1) (Router.deliver e)
          hand := .sweeping e ((if k ≤ n then 0 else 1) + 1) }
      else { x.solo n with hand := .empty } := by
      unfold look
      rw [show (x.solo n).hand = .sweeping e (if k ≤ n then 0 else 1) from congrArg (Hand.solo n) hh]
      rfl
    have hcount := solo_count x n
    rw [hlook, hown]
    by_cases hlt : k < x.count
    · rw [if_pos hlt]
      by_cases hkn : k = n
      · subst hkn
        rw [if_neg fun h => h.2 rfl]
        show _ = (x.solo k).look
        rw [hsolo, hcount, if_pos (Nat.le_refl k), if_pos hlt, if_pos Nat.zero_lt_one]
        show { ({ x with router := x.router.modify k (Router.deliver e) } : Relay).solo k with
          hand := .sweeping e (if k + 1 ≤ k then 0 else 1) } = _
        rw [if_neg (Nat.not_succ_le_self k), solo_modify]
      · -- another subscription is looked at
        rw [if_pos ⟨hlt, hkn⟩]
        show { ({ x with router := x.router.modify k (Router.deliver e) } : Relay).solo n with
          hand := .sweeping e (if k + 1 ≤ n then 0 else 1) } = x.solo n
        have hsame : (if k + 1 ≤ n then 0 else 1) = if k ≤ n then 0 else 1 := if_congr (by omega) rfl rfl
        have hhand : (x.solo n).hand = .sweeping e (if k ≤ n then 0 else 1) := congrArg (Hand.solo n) hh
        rw [solo_other x hkn, hsame, ← hhand]
    · have hle := hk e k hh
      rw [if_neg hlt, if_neg fun h => hlt h.1]
      show _ = (x.solo n).look
      rw [hsolo, hcount, if_neg (by split_ifs <;> omega)]
      rfl

/-- **What is left of a move** is a move of what is left, or nothing. -/
theorem solo_move (x : Relay) (n : Nat) (m : Move) (hk : ∀ e k, x.hand = .sweeping e k → k ≤ x.count) :
    (x.move m).solo n = (own x n m).elim (x.solo n) (x.solo n).move := by
  cases m with
  | publish e => exact solo_publish x n e
  | subscribe topic =>
    refine (solo_subscribe x n topic).trans ?_
    show _ = (if x.count = n then some (Move.subscribe topic) else none).elim _ _
    split_ifs <;> rfl
  | read k =>
    show _ = (if k = n then some (Move.read 0) else none).elim _ _
    split_ifs with h
    · subst h
      exact solo_read x k
    · exact solo_read_other x h
  | readAll k =>
    show _ = (if k = n then some (Move.readAll 0) else none).elim _ _
    rw [readAll_eq]
    split_ifs with h
    · subst h
      rw [solo_note, ← solo_sub?]
      rfl
    · exact solo_note_other x h ..
  | drop k =>
    show _ = (if k = n then some (Move.drop 0) else none).elim _ _
    split_ifs with h
    · subst h
      exact solo_modify x k _
    · exact solo_other x h _
  | take => exact solo_take x n
  | look => exact solo_look x n hk
  | stop =>
    show (if x.isDone then _ else x : Relay).solo n =
      if (x.solo n).isDone then _ else x.solo n
    rw [solo_isDone]
    split_ifs <;> rfl
  | addSender =>
    show (if x.router.isOpen then _ else x : Relay).solo n = if x.router.isOpen then _ else x.solo n
    split_ifs <;> rfl
  | dropSender => rfl
  | dropRouter => rfl

theorem solo_new (n : Nat) : ({} : Relay).solo n = {} := by
  unfold solo
  congr 1
  funext k
  exact ite_self []

/-- **What is left of a relay after a schedule** is what the moves lead to that concern the one
subscription. -/
theorem solo_after (σ : Nat → Move) (n k : Nat) : (after σ k).solo n = (owns σ n k).foldl move {} := by
  induction k with
  | zero => exact solo_new n
  | succ k ih =>
    rw [after_succ, solo_move _ n (σ k) (sound_after σ k).looked, ih]
    show _ = (owns σ n k ++ (own (after σ k) n (σ k)).toList).foldl move {}
    rw [List.foldl_append]
    cases own (after σ k) n (σ k) <;> rfl

/-- A subscription is given the same when it is alone. -/
theorem solo_given (x : Relay) (n : Nat) : (x.solo n).given 0 = x.given n := by
  show soloSeen x.seen n 0 ++ (((x.solo n).router.subscriptions[0]?).map (·.queue)).getD [] = _
  rw [solo_sub?]
  rfl

end Relay
end DebugHost
