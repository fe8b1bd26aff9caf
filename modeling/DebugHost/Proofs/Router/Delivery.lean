import DebugHost.Proofs.Router.Solo

/-! # What a subscription is given

In every order of moves a subscription that is not dropped is given the events of its topic that were waiting
to be copied when it was made, and those that were published since, each once and in the order in which they
were published (`given_since`). What it is given is what it would be given if it were alone (`solo_after`). It
is served as long as it is not dropped, and from then on until it is looked at for the first event of its
topic (`served_iff`).

Events wait until they are copied, so a subscription may be given events that were published before it was
made: just those of its topic that were still waiting then (`none_older_iff`). What had been copied by then it
is not given. -/

namespace DebugHost.Relay

variable {x y : Relay} {m : Move} {n : Nat} {s s' : Subscription} {e : RoutedEvent} {topic : Topic}
  {σ : Nat → Move} {i j k : Nat}

/-- The events of a topic. -/
def about (topic : Topic) (events : List RoutedEvent) : List RoutedEvent :=
  events.filter (·.isAbout topic)

theorem about_append (topic : Topic) (events more : List RoutedEvent) :
    about topic (events ++ more) = about topic events ++ about topic more := List.filter_append ..

theorem about_cons (topic : Topic) (e : RoutedEvent) (events : List RoutedEvent) :
    about topic (e :: events) = (if e.isAbout topic then [e] else []) ++ about topic events := by
  unfold about
  rw [List.filter_cons]
  split_ifs <;> rfl

theorem given_of_sub (hs : x.sub? n = some s) : x.given n = x.seen n ++ s.queue := by
  unfold given
  rw [hs]
  rfl

/-! ### What a move gives -/

theorem deliver_eq (hserved : s.served = true) (hlive : s.live = true) : Router.deliver e s =
    { s with queue := s.queue ++ if e.isAbout s.topic then [e] else [] } := by
  obtain ⟨topic, queue, live, served⟩ := s
  cases hserved
  cases hlive
  cases habout : e.isAbout topic <;> simp [Router.deliver, habout]

theorem Meets.topic_eq (h : Meets x m y n s s') : s'.topic = s.topic := by
  cases h with
  | offered hm hh hseen hw =>
    unfold Router.deliver
    split_ifs <;> rfl
  | _ => rfl

/-- What was dropped stays so. -/
theorem Meets.live (h : Meets x m y n s s') (hl : s'.live = true) : s.live = true := by
  cases h with
  | dropped hm => cases hl
  | offered hm hh hseen hw =>
    unfold Router.deliver at hl
    split_ifs at hl with hserved hlive
    · exact hlive
    · exact hl
    · exact hl
  | _ => exact hl

/-- Given or waiting, what there is for a subscription that is not dropped only grows, by the news. -/
theorem Meets.given (h : Meets x m y n s s') (hserved : s.served = true) (hl : s'.live = true) :
    y.seen n ++ s'.queue ++ about s.topic (y.waiting n) =
      x.seen n ++ s.queue ++ about s.topic (x.waiting n) ++ about s.topic (x.news m) := by
  have hlive := h.live hl
  cases h with
  | same hseen hw => rw [hseen, hw, about_append, List.append_assoc (x.seen n ++ s.queue)]
  | read hq hseen hw => rw [hseen, hw, hq, about_append]; simp only [List.append_assoc]
  | dropped hm => cases hl
  | @offered e hm hh hseen hw =>
    subst hm
    have hnews : about s.topic (x.news .look) = [] := rfl
    rw [deliver_eq hserved hlive, hseen, hw, about_cons, hnews]
    simp only [List.append_assoc, List.append_nil]

/-! ### What a run gives -/

/-- A subscription stays, with its topic, and was not dropped if it is not dropped later. -/
theorem sub_later (hs : (after σ i).sub? n = some s) (hij : i ≤ j) :
    ∃ s', (after σ j).sub? n = some s' ∧ s'.topic = s.topic ∧ (s'.live = true → s.live = true) := by
  induction hij with
  | refl => exact ⟨s, hs, rfl, id⟩
  | step _ ih =>
    obtain ⟨q, hq, htopic, hlive⟩ := ih
    obtain ⟨q', hq', hmeets⟩ := (change_move _ (σ _)).meets hq
    exact ⟨q', hq', hmeets.topic_eq.trans htopic, fun hl => hlive (hmeets.live hl)⟩

/-- From one time to another there is just what was published in between. -/
theorem given_between (hs : (after σ i).sub? n = some s) (hij : i ≤ j)
    (hs' : (after σ j).sub? n = some s') (hl : s'.live = true) :
    ∃ since, (after σ j).published = (after σ i).published ++ since ∧
      (after σ j).given n ++ about s.topic ((after σ j).waiting n) =
        (after σ i).given n ++ about s.topic ((after σ i).waiting n) ++ about s.topic since := by
  induction hij generalizing s' with
  | refl => exact ⟨[], (List.append_nil _).symm, (List.append_nil _).symm⟩
  | @step k hik ih =>
    obtain ⟨q, hq, htopic, -⟩ := sub_later hs hik
    obtain ⟨q', hq', hmeets⟩ := (change_move _ (σ k)).meets hq
    cases hq'.symm.trans hs'
    have hlive := hmeets.live hl
    obtain ⟨since, hpublished, hgiven⟩ := ih hq hlive
    refine ⟨since ++ (after σ k).news (σ k), ?_, ?_⟩
    · rw [after_succ, (change_move _ (σ k)).published, hpublished, List.append_assoc]
    · have hstep := hmeets.given ((sound_after σ k).served n q hq hlive) hl
      rw [htopic, ← given_of_sub hq] at hstep
      rw [given_of_sub hs', after_succ, hstep, hgiven, about_append, List.append_assoc]

/-- What there is when a subscription has been made. -/
theorem joined_now (hσ : σ i = .subscribe topic) (hj : (after σ i).canJoin = true) :
    (after σ (i + 1)).sub? (after σ i).count =
        some { topic, served := (after σ i).router.running } ∧
      (after σ (i + 1)).given (after σ i).count = [] ∧
      (after σ (i + 1)).waiting (after σ i).count = (after σ i).backlog ∧
      (after σ (i + 1)).published = (after σ i).published := by
  have hmove : after σ (i + 1) =
      { after σ i with router := ((after σ i).router.subscribe topic).2 } := by
    rw [after_succ, hσ]
    exact if_pos hj
  have hsub : (after σ (i + 1)).sub? (after σ i).count =
      some { topic, served := (after σ i).router.running } := by
    rw [hmove]
    exact List.getElem?_concat_length ..
  refine ⟨hsub, ?_, ?_, ?_⟩
  · rw [given_of_sub hsub, hmove]
    have hunread := (sound_after σ i).unread (after σ i).count (List.getElem?_eq_none (Nat.le_refl _))
    exact (List.append_nil _).trans hunread
  · rw [hmove]
    show (after σ i).hand.ahead _ ++ _ = (after σ i).hand.event ++ _
    have hsweeping := (Bool.and_eq_true_iff.mp hj).2
    cases hh : (after σ i).hand with
    | empty => rfl
    | taken e => rfl
    | sweeping e k =>
      rw [hh] at hsweeping
      cases hsweeping
  · rw [hmove]

/-- **What a subscription is given**: what was waiting when it was made, and what was published since, as far
as it is about its topic. -/
theorem given_since (hσ : σ i = .subscribe topic) (hj : (after σ i).canJoin = true) (hij : i < j)
    (hs : (after σ j).sub? (after σ i).count = some s) (hl : s.live = true) :
    ∃ since, (after σ j).published = (after σ i).published ++ since ∧
      (after σ j).given (after σ i).count ++ about topic ((after σ j).waiting (after σ i).count) =
        about topic ((after σ i).backlog ++ since) := by
  obtain ⟨hsub, hgiven, hwaiting, hpublished⟩ := joined_now hσ hj
  obtain ⟨since, hsince, hall⟩ := given_between hsub hij hs hl
  refine ⟨since, hpublished ▸ hsince, ?_⟩
  rw [hall, hgiven, hwaiting, about_append]
  rfl

theorem waiting_of_backlog (h : x.backlog = []) (n : Nat) : x.waiting n = [] := by
  obtain ⟨hevent, hinbound⟩ := List.append_eq_nil_iff.mp h
  unfold waiting
  rw [hinbound, List.append_nil]
  cases hh : x.hand with
  | empty => rfl
  | taken e => rw [hh] at hevent; cases hevent
  | sweeping e k => rw [hh] at hevent; cases hevent

/-- What a subscription has been given when everything is copied. -/
theorem given_drained (hσ : σ i = .subscribe topic) (hj : (after σ i).canJoin = true) (hij : i < j)
    (hs : (after σ j).sub? (after σ i).count = some s) (hl : s.live = true)
    (hb : (after σ j).backlog = []) :
    ∃ since, (after σ j).published = (after σ i).published ++ since ∧
      (after σ j).given (after σ i).count = about topic (after σ i).backlog ++ about topic since := by
  obtain ⟨since, hpublished, hgiven⟩ := given_since hσ hj hij hs hl
  rw [waiting_of_backlog hb] at hgiven
  refine ⟨since, hpublished, ?_⟩
  rw [← about_append, ← hgiven]
  exact (List.append_nil _).symm

/-! ### Who is served -/

/-- A subscription is looked at for an event. -/
def IsOffered (σ : Nat → Move) (k n : Nat) (e : RoutedEvent) : Prop :=
  σ k = .look ∧ (after σ k).hand = .sweeping e n

theorem look_offered (hh : x.hand = .sweeping e n) (hs : x.sub? n = some s) :
    x.look.sub? n = some (Router.deliver e s) := by
  have hn : n < x.router.subscriptions.length := (List.getElem?_eq_some_iff.mp hs).1
  have hlook : x.look =
      { x with router := x.router.modify n (Router.deliver e), hand := .sweeping e (n + 1) } := by
    unfold look
    rw [hh]
    exact if_pos hn
  rw [hlook]
  refine (sub?_modify x n n _).trans ((if_pos rfl).trans ?_)
  rw [hs]
  rfl

theorem deliver_dropped (hserved : s.served = true) (hdropped : s.live = false) :
    Router.deliver e s = { s with served := !e.isAbout s.topic } := by
  obtain ⟨topic, queue, live, served⟩ := s
  cases hserved
  cases hdropped
  cases habout : e.isAbout topic <;> simp [Router.deliver, habout]

/-- A dropped subscription is served on, unless it is looked at for an event of its topic. -/
theorem served_step (hs : (after σ k).sub? n = some s) (hserved : s.served = true)
    (hdropped : s.live = false) (hs' : (after σ (k + 1)).sub? n = some s') :
    s'.served = true ↔ ∀ e, IsOffered σ k n e → e.isAbout s.topic = false := by
  by_cases ho : ∃ e, IsOffered σ k n e
  · obtain ⟨e, hσ, hh⟩ := ho
    have hlook : (after σ (k + 1)).sub? n = some (Router.deliver e s) := by
      rw [after_succ, hσ]
      exact look_offered hh hs
    cases hs'.symm.trans hlook
    rw [deliver_dropped hserved hdropped]
    refine ⟨fun h e' he' => ?_, fun h => ?_⟩
    · cases hh.symm.trans he'.2
      exact Bool.not_eq_true' _ ▸ h
    · exact (congrArg (!·) (h e ⟨hσ, hh⟩)).trans rfl
  · refine ⟨fun _ e he => absurd ⟨e, he⟩ ho, fun _ => ?_⟩
    obtain ⟨q, hq, hmeets⟩ := (change_move _ (σ k)).meets hs
    cases hq.symm.trans hs'
    cases hmeets with
    | offered hm hh hseen hw => exact absurd ⟨_, hm, hh⟩ ho
    | _ => exact hserved

/-- What is not served any more stays so. -/
theorem Meets.unserved (h : Meets x m y n s s') (hserved : s.served = false) : s'.served = false := by
  cases h with
  | offered hm hh hseen hw =>
    unfold Router.deliver
    rw [hserved]
    exact hserved
  | _ => exact hserved

/-- **A dropped subscription is served until it is looked at for an event of its topic.** -/
theorem served_iff (hs : (after σ i).sub? n = some s) (hserved : s.served = true)
    (hdropped : s.live = false) (hij : i ≤ j) (hs' : (after σ j).sub? n = some s') :
    s'.served = true ↔ ∀ k, i ≤ k → k < j → ∀ e, IsOffered σ k n e → e.isAbout s.topic = false := by
  induction hij generalizing s' with
  | refl =>
    cases hs.symm.trans hs'
    exact ⟨fun _ k hk hk' => absurd hk' (Nat.not_lt_of_le hk), fun _ => hserved⟩
  | @step j hij ih =>
    obtain ⟨q, hq, htopic, hlive⟩ := sub_later hs hij
    have hq' : q.live = false := by
      cases hl : q.live with
      | false => rfl
      | true => cases (hlive hl).symm.trans hdropped
    have hbefore := ih hq
    cases hqs : q.served with
    | true =>
      rw [served_step hq hqs hq' hs', htopic]
      rw [hqs] at hbefore
      refine ⟨fun h k hk hkj e he => ?_, fun h e he => h j hij (Nat.lt_succ_self j) e he⟩
      rcases Nat.lt_succ_iff_lt_or_eq.mp hkj with hlt | rfl
      · exact hbefore.mp rfl k hk hlt e he
      · exact h e he
    | false =>
      obtain ⟨t, ht, hmeets⟩ := (change_move _ (σ j)).meets hq
      cases ht.symm.trans hs'
      rw [hqs] at hbefore
      rw [hmeets.unserved hqs]
      constructor
      · intro h
        cases h
      · exact fun h => hbefore.mpr fun k hk hkj e he => h k hk (Nat.lt_succ_of_lt hkj) e he

theorem drop_now (hσ : σ i = .drop n) (hs : (after σ i).sub? n = some s) :
    (after σ (i + 1)).sub? n = some { s with live := false, queue := [] } := by
  rw [after_succ, hσ]
  refine (sub?_modify (after σ i) n n _).trans ((if_pos rfl).trans ?_)
  rw [hs]
  rfl

/-! ### All together -/

/-- What can be said of the subscriptions of a router. -/
structure Delivery (σ : Nat → Move) : Prop where
  /-- A subscription that is not dropped is given what was waiting when it was made and what was published
  since, as far as it is about its topic: each event once, in the order in which they were published, and
  those that it has not been looked at for are still to come. -/
  given : ∀ i j topic s, σ i = .subscribe topic → (after σ i).canJoin = true → i < j →
    (after σ j).sub? (after σ i).count = some s → s.live = true →
    ∃ since, (after σ j).published = (after σ i).published ++ since ∧
      (after σ j).given (after σ i).count ++ about topic ((after σ j).waiting (after σ i).count) =
        about topic ((after σ i).backlog ++ since)
  /-- So when everything is copied it has all of that. -/
  drained : ∀ i j topic s, σ i = .subscribe topic → (after σ i).canJoin = true → i < j →
    (after σ j).sub? (after σ i).count = some s → s.live = true → (after σ j).backlog = [] →
    ∃ since, (after σ j).published = (after σ i).published ++ since ∧
      (after σ j).given (after σ i).count = about topic (after σ i).backlog ++ about topic since
  /-- What is left of the router when all other subscriptions are taken away is what those moves lead to
  that concern the one subscription. -/
  alone : ∀ n j, (after σ j).solo n = (owns σ n j).foldl move {} ∧
    (after σ j).given n = ((owns σ n j).foldl move {}).given 0
  /-- So whatever the others do, with the same moves of its own a subscription is given the same. -/
  independent : ∀ σ' n j j', owns σ n j = owns σ' n j' →
    (after σ j).given n = (after σ' j').given n ∧ (after σ j).sub? n = (after σ' j').sub? n
  /-- A subscription that is not dropped is served. -/
  served : ∀ n j s, (after σ j).sub? n = some s → s.live = true → s.served = true
  /-- When it is dropped, it is served until it is looked at for an event of its topic. -/
  dropped : ∀ n i j s s', σ i = .drop n → (after σ i).sub? n = some s → s.live = true → i < j →
    (after σ j).sub? n = some s' →
    (s'.served = true ↔ ∀ k, i < k → k < j → ∀ e, IsOffered σ k n e → e.isAbout s.topic = false)

/-- **Every subscription is given the events of its topic, each once and in order**, whatever becomes of the
others. -/
theorem delivery (σ : Nat → Move) : Delivery σ where
  given i j topic s hσ hj hij hs hl := given_since hσ hj hij hs hl
  drained i j topic s hσ hj hij hs hl hb := given_drained hσ hj hij hs hl hb
  alone n j := by
    have hsolo := solo_after σ n j
    exact ⟨hsolo, by rw [← hsolo, solo_given]⟩
  independent σ' n j j' h := by
    have hsame : (after σ j).solo n = (after σ' j').solo n := by rw [solo_after, solo_after, h]
    exact ⟨by rw [← solo_given, hsame, solo_given], by rw [← solo_sub?, hsame, solo_sub?]⟩
  served n j s hs hl := (sound_after σ j).served n s hs hl
  dropped n i j s s' hσ hs hl hij hs' :=
    (served_iff (drop_now hσ hs) ((sound_after σ i).served n s hs hl) rfl hij hs' :)

/-- A line that a program has printed. -/
def printed (line : String) : RoutedEvent := .process ⟨1⟩ (.stdout line)

/-- Two subscriptions are made, the second when an event has been taken, the first one reads slowly, and the
second is dropped when it has got that event. -/
def crossing : List Move :=
  [.subscribe .all, .publish (printed "a"), .take, .subscribe .console, .look, .publish (printed "b"), .look,
    .look, .look, .read 1, .drop 1, .take, .look, .look, .read 0, .look, .look]

example : let x := crossing.foldl move {}
    x.given 0 = [printed "a", printed "b"] ∧ x.seen 0 = [printed "a"] ∧ x.seen 1 = [printed "a"] ∧
      x.router.served = 1 ∧ x.backlog = [] := by
  decide +kernel

end DebugHost.Relay

/-! ### What is older than a subscription -/

namespace DebugHost.Relay

variable {σ : Nat → Move} {i j : Nat} {s : Subscription} {topic : Topic} {e : RoutedEvent}

/-- When everything is copied, a subscription has been given nothing that is older than itself just if no
event of its topic was waiting when it was made. -/
theorem none_older_iff (hσ : σ i = .subscribe topic) (hj : (after σ i).canJoin = true) (hij : i < j)
    (hs : (after σ j).sub? (after σ i).count = some s) (hl : s.live = true) (hb : (after σ j).backlog = []) :
    (∃ since, (after σ j).published = (after σ i).published ++ since ∧
      (after σ j).given (after σ i).count = about topic since) ↔ about topic (after σ i).backlog = [] := by
  obtain ⟨since, hpublished, hgiven⟩ := given_drained hσ hj hij hs hl hb
  constructor
  · rintro ⟨since', hpublished', hgiven'⟩
    obtain rfl : since' = since := List.append_cancel_left (hpublished'.symm.trans hpublished)
    exact List.append_left_eq_self.mp (hgiven.symm.trans hgiven')
  · intro h
    rw [h] at hgiven
    exact ⟨since, hpublished, hgiven⟩

/-- An event is published, a subscription is made, and then the event is copied and read. -/
def overtaken (e : RoutedEvent) (topic : Topic) : Nat → Move
  | 0 => .publish e
  | 1 => .subscribe topic
  | 2 => .take
  | 3 | 4 | 5 => .look
  | _ => .readAll 0

theorem overtaken_seen (h : e.isAbout topic = true) : (after (overtaken e topic) 7).seen 0 = [e] := by
  show (Router.deliver e { topic }).queue = [e]
  rw [deliver_eq rfl rfl]
  exact if_pos h

/-- What a subscription is given that is older than itself. -/
structure Older (σ : Nat → Move) : Prop where
  /-- It is given no event that had been copied when it was made, and all that were waiting to be copied, as
  far as they are about its topic. -/
  given : ∀ i j topic s, σ i = .subscribe topic → (after σ i).canJoin = true → i < j →
    (after σ j).sub? (after σ i).count = some s → s.live = true → (after σ j).backlog = [] →
    ∃ copied since, (after σ i).published = copied ++ (after σ i).backlog ∧
      (after σ j).published = copied ++ (after σ i).backlog ++ since ∧
      (after σ j).given (after σ i).count = about topic (after σ i).backlog ++ about topic since
  /-- So it is given what was published since it was made, and nothing else, just if no event of its topic was
  waiting then. -/
  none_older : ∀ i j topic s, σ i = .subscribe topic → (after σ i).canJoin = true → i < j →
    (after σ j).sub? (after σ i).count = some s → s.live = true → (after σ j).backlog = [] →
    ((∃ since, (after σ j).published = (after σ i).published ++ since ∧
      (after σ j).given (after σ i).count = about topic since) ↔ about topic (after σ i).backlog = [])
  /-- Every event can come to a subscription that was made after it had been published. -/
  overtaken : ∀ e topic, e.isAbout topic = true → ∃ σ' i j, i < j ∧ σ' i = .subscribe topic ∧
    (after σ' i).canJoin = true ∧ e ∈ (after σ' i).published ∧
    (after σ' j).published = (after σ' i).published ∧ e ∈ (after σ' j).seen (after σ' i).count

/-- **A subscription is given what is older than itself if that has not been copied yet**, and nothing else
that is older. -/
theorem older (σ : Nat → Move) : Older σ where
  given i j topic s hσ hj hij hs hl hb := by
    obtain ⟨copied, hcopied⟩ := (sound_after σ i).late
    obtain ⟨since, hpublished, hgiven⟩ := given_drained hσ hj hij hs hl hb
    exact ⟨copied, since, hcopied.symm, hcopied.symm ▸ hpublished, hgiven⟩
  none_older i j topic s hσ hj hij hs hl hb := none_older_iff hσ hj hij hs hl hb
  overtaken e topic h := by
    refine ⟨overtaken e topic, 1, 7, by decide, rfl, rfl, List.mem_singleton_self e, rfl, ?_⟩
    show e ∈ (after (overtaken e topic) 7).seen 0
    rw [overtaken_seen h]
    exact List.mem_singleton_self e

end DebugHost.Relay
