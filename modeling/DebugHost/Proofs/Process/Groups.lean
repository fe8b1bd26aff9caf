import DebugHost.Proofs.Process.Place

/-! # The group of a run

The processes of a group that are alive become fewer as soon as nobody of them is left who could make
another one: a group without a living process stays so (`isPeopled_change`). The system gives the number of a
group again only then, so that a signal reaches a living process of another group at no time
(`Alone.others`). That is why the processes of a group are killed by the watcher of its run or not at all
(`Killed`), and not before the deadline has passed. -/

namespace DebugHost.Supervision

variable {x y : Supervision} {id j : RunId} {r r' : Run} {m : Member} {deed : Deed}
  {grace : Duration} {σ : Nat → Move} {n g now : Nat}

/-! ### Processes -/

theorem isAlive_receive (signal : GroupSignal) (h : (m.receive signal).isAlive = true) :
    m.isAlive = true := by
  cases signal with
  | terminate group => exact h
  | kill group => simp [Member.receive, Member.isAlive] at h

theorem isAlive_leave (h : m.leave.isAlive = true) : m.isAlive = true := by
  unfold Member.leave Member.isAlive at *
  cases hl : m.left <;> cases hk : m.killed <;> simp_all

theorem mem_deliver {signal : GroupSignal} (h : m ∈ x.deliver signal id) :
    ∃ m' ∈ x.members id, m = m' ∨ m = m'.receive signal := by
  unfold deliver at h
  split at h
  · obtain ⟨m', hm', rfl⟩ := List.mem_map.mp h
    exact ⟨m', hm', Or.inr rfl⟩
  · exact ⟨m, h, Or.inl rfl⟩

theorem mem_leaves {ms : List Member} {k : Nat} (h : m ∈ ms.modify k Member.leave) :
    ∃ m' ∈ ms, m = m' ∨ m = m'.leave := by
  obtain ⟨i, hi, rfl⟩ := List.mem_iff_getElem.mp h
  have hi' : i < ms.length := by simpa using hi
  refine ⟨ms[i], List.getElem_mem hi', ?_⟩
  rw [List.getElem_modify]
  split
  · exact Or.inr rfl
  · exact Or.inl rfl

/-! ### What happens to a group -/

theorem Attends.process (ha : Attends g now r r' deed) : r'.process = r.process := by
  cases ha with
  | @abandon e t d hw hd ho => cases t <;> rfl
  | _ => rfl

theorem Alters.process (ha : Alters x y id r r') : r'.process = r.process := by
  cases ha with
  | same hu => rfl
  | attends ha hu => exact ha.process
  | cancelled hme hu => rfl
  | @fed t chunk ho =>
    unfold Run.feed
    split
    · rfl
    · cases t <;> rfl
  | @finished t ho =>
    unfold Run.finish
    split
    · rfl
    · cases t <;> rfl

theorem Attends.isLed (ha : Attends g now r r' deed) (h : r'.watch.isLed = true) :
    r.watch.isLed = true := by
  cases ha with
  | terminate hw hs => rw [hw]; rfl
  | @join e t d hw ho => cases t <;> cases h
  | @abandon e t d hw hd ho => cases t <;> cases h
  | _ => cases h

theorem Alters.isLed (ha : Alters x y id r r') (h : r'.watch.isLed = true) : r.watch.isLed = true := by
  cases ha with
  | same hu => exact h
  | attends ha hu => exact ha.isLed h
  | cancelled hme hu => exact h
  | fed chunk ho => exact (congrArg Watch.isLed (watch_feed r _ chunk)).symm.trans h
  | finished ho => exact (congrArg Watch.isLed (watch_finish r _)).symm.trans h

/-- All that can happen to the processes of a group. -/
inductive Peoples (x y : Supervision) (id : RunId) : List Member → Prop where
  | same : Peoples x y id (x.members id)
  | signalled {j : RunId} {r r' : Run} {signal : GroupSignal} (hr : x.supervisor.find? j = some r)
    (hr' : y.supervisor.find? j = some r')
    (ha : Attends x.supervisor.grace.millis x.now r r' (.signal signal)) :
    Peoples x y id (x.deliver signal id)
  | forks (hp : x.isPeopled id = true) : Peoples x y id (x.members id ++ [({} : Member)])
  | leaves (k : Nat) : Peoples x y id ((x.members id).modify k Member.leave)

theorem Change.peoples (hc : Change x y) (id : RunId) : Peoples x y id (y.members id) := by
  cases hc with
  | @attends j r r' deed s hr ha hs =>
    cases deed with
    | signal signal => exact .signalled hr ((hs.find j).trans (if_pos rfl)) ha
    | _ => exact .same
  | @forks j hp =>
    show Peoples x _ id (Function.update x.members j _ id)
    rw [Function.update_apply]
    split
    · next h =>
      subst h
      exact .forks hp
    · exact .same
  | leaves j k =>
    show Peoples x _ id (Function.update x.members j _ id)
    rw [Function.update_apply]
    split
    · next h =>
      subst h
      exact .leaves k
    · exact .same
  | _ => exact .same

/-- Where the watch of a run changes, its watcher has done something. -/
theorem Change.watches (hc : Change x y) (hr : x.supervisor.find? id = some r)
    (hr' : y.supervisor.find? id = some r') (hw : r'.watch ≠ r.watch) :
    ∃ deed, Attends x.supervisor.grace.millis x.now r r' deed ∧
      y.members = (deed.signal?.map x.deliver).getD x.members := by
  have hsame : x.supervisor.find? id ≠ some r' := fun hq => by
    cases hq.symm.trans hr
    exact hw rfl
  cases hc with
  | starts c hp hfree =>
    rw [find?_enroll, hr, Option.some_or] at hr'
    exact absurd (hr.trans hr') hsame
  | steps me hme hs =>
    cases hs with
    | @cancels j =>
      rw [show (x.put me (.stopping j) (x.supervisor.cancel j)).supervisor = x.supervisor.cancel j
        from rfl, find?_cancel] at hr'
      split at hr'
      · next h =>
        subst h
        rw [hr] at hr'
        cases hr'
        exact absurd rfl hw
      · exact absurd hr' hsame
    | _ => exact absurd hr' hsame
  | @attends j q q' deed s hq ha hs =>
    have hfind := (hs.find id).symm.trans hr'
    split at hfind
    · next h =>
      subst h
      cases hq.symm.trans hr
      cases hfind
      exact ⟨deed, ha, rfl⟩
    · exact absurd hfind hsame
  | @reads j q t chunk hq ho =>
    have hfind := (find?_modified hq (fun r => feed_id r t chunk) id).symm.trans hr'
    split at hfind
    · next h =>
      subst h
      cases hq.symm.trans hr
      cases hfind
      exact absurd (watch_feed r t chunk) hw
    · exact absurd hfind hsame
  | @finishes j q t hq ho =>
    have hfind := (find?_modified hq (fun r => finish_id r t) id).symm.trans hr'
    split at hfind
    · next h =>
      subst h
      cases hq.symm.trans hr
      cases hfind
      exact absurd (watch_finish r t) hw
    · exact absurd hfind hsame
  | _ => exact absurd hr' hsame

theorem isPeopled_of_find (hr : x.supervisor.find? id = some r) :
    x.isPeopled id = (r.watch.isLed || (x.members id).any Member.isAlive) := by
  unfold isPeopled
  rw [hr]
  rfl

/-- A process of a group that is alive was so before, or was made by the group. -/
theorem Peoples.isAlive {ms : List Member} (h : Peoples x y id ms)
    (hms : ms.any Member.isAlive = true) :
    (x.members id).any Member.isAlive = true ∨ x.isPeopled id = true := by
  obtain ⟨m, hm, halive⟩ := List.any_eq_true.mp hms
  cases h with
  | same => exact Or.inl hms
  | signalled hr hr' ha =>
    obtain ⟨m', hm', rfl | rfl⟩ := mem_deliver hm
    · exact Or.inl (List.any_eq_true.mpr ⟨_, hm', halive⟩)
    · exact Or.inl (List.any_eq_true.mpr ⟨_, hm', isAlive_receive _ halive⟩)
  | forks hp => exact Or.inr hp
  | leaves k =>
    obtain ⟨m', hm', rfl | rfl⟩ := mem_leaves hm
    · exact Or.inl (List.any_eq_true.mpr ⟨_, hm', halive⟩)
    · exact Or.inl (List.any_eq_true.mpr ⟨_, hm', isAlive_leave halive⟩)

/-- **A group without a living process stays so.** -/
theorem isPeopled_change (hc : Change x y) (hr : x.supervisor.find? id = some r)
    (h : y.isPeopled id = true) : x.isPeopled id = true := by
  obtain ⟨r', hr', ha⟩ := hc.alters hr
  rw [isPeopled_of_find hr'] at h
  rw [isPeopled_of_find hr]
  rcases Bool.or_eq_true_iff.mp h with hled | hmembers
  · exact Bool.or_eq_true_iff.mpr (Or.inl (ha.isLed hled))
  · rcases (hc.peoples id).isAlive hmembers with halive | hpeopled
    · exact Bool.or_eq_true_iff.mpr (Or.inr halive)
    · rwa [isPeopled_of_find hr] at hpeopled

/-! ### Numbers of groups -/

/-- Of two runs whose groups have the same number, the group of the older one has no living process. -/
def Alone (x : Supervision) : Prop := ∀ i j ri rj, x.supervisor.find? i = some ri →
  x.supervisor.find? j = some rj → i.number < j.number → ri.process = rj.process → x.isPeopled i = false

theorem not_isPeopled_of_isFree {process : Nat} (h : x.isFree process = true)
    (hr : x.supervisor.find? id = some r) (hprocess : r.process = process) : x.isPeopled id = false := by
  have hrun := List.all_eq_true.mp h r (List.mem_of_find?_eq_some hr)
  rw [id_of_find? hr] at hrun
  simpa [hprocess] using hrun

theorem Alone.change (h : Alone x) (hp : Placed x) (hc : Change x y) : Alone y := by
  intro i j ri rj hi hj hij hsame
  cases hxi : x.supervisor.find? i with
  | none =>
    -- the older run is not the one that has just been started, which is the youngest
    obtain ⟨c, process, hy, -, -⟩ := hc.started hxi hi
    have hnext : y.supervisor.next = x.supervisor.next + 1 := by rw [hy]; rfl
    have hybounds := (hp.change hc).numbers
    have hi' := (hybounds i).mp (by rw [released?_of_find hi]; simp)
    have hj' := (hybounds j).mp (by rw [released?_of_find hj]; simp)
    have hnew : ¬ (0 < i.number ∧ i.number < x.supervisor.next) := fun hold =>
      find?_isSome_iff.mpr ((hp.numbers i).mpr hold) hxi
    omega
  | some qi =>
    obtain ⟨qi', hqi', hai⟩ := hc.alters hxi
    cases hqi'.symm.trans hi
    -- a group that was empty before is empty
    refine Bool.eq_false_iff.mpr fun hyes => ?_
    have hbefore := isPeopled_change hc hxi hyes
    cases hxj : x.supervisor.find? j with
    | none =>
      obtain ⟨c, process, -, rfl, hfree⟩ := hc.started hxj hj
      cases hbefore.symm.trans (not_isPeopled_of_isFree hfree hxi (hai.process.symm.trans hsame))
    | some qj =>
      obtain ⟨qj', hqj', haj⟩ := hc.alters hxj
      cases hqj'.symm.trans hj
      have hprocess : qi.process = qj.process := hai.process.symm.trans (hsame.trans haj.process)
      cases hbefore.symm.trans (h i j qi qj hxi hxj hij hprocess)

theorem alone_after (grace : Duration) (σ : Nat → Move) (n : Nat) : Alone (after grace σ n) := by
  have h : Placed (after grace σ n) ∧ Alone (after grace σ n) :=
    after_keeps (P := fun x => Placed x ∧ Alone x) grace ⟨placed_new grace, fun _ _ _ _ h => nomatch h⟩
      (fun _ _ hc h => ⟨h.1.change hc, h.2.change h.1 hc⟩) σ n
  exact h.2

/-- A watcher that signals its group waits for the program that leads it. -/
theorem Attends.signals {signal : GroupSignal} (ha : Attends g now r r' (.signal signal)) :
    r.watch.isLed = true ∧ group signal = r.process := by
  cases ha with
  | terminate hw hs => exact ⟨by rw [hw]; rfl, rfl⟩
  | kill hw hd => exact ⟨by rw [hw]; rfl, rfl⟩

/-- **A signal reaches no living process of another group.** -/
theorem Alone.others (h : Alone x) {q q' : Run} {signal : GroupSignal}
    (hq : x.supervisor.find? j = some q) (ha : Attends g now q q' (.signal signal))
    (hr : x.supervisor.find? id = some r) (hne : id ≠ j) (hgroup : r.process = group signal) :
    x.isPeopled id = false := by
  obtain ⟨hled, hsignal⟩ := ha.signals
  have hsame : r.process = q.process := hgroup.trans hsignal
  have hpeopled : x.isPeopled j = true := by
    rw [isPeopled_of_find hq, hled]
    rfl
  have hnumber : id.number ≠ j.number := fun hn => hne (congrArg RunId.mk hn)
  rcases Nat.lt_or_gt_of_ne hnumber with hlt | hgt
  · exact h id j r q hr hq hlt hsame
  · cases hpeopled.symm.trans (h j id q r hq hr hgt hsame.symm)

/-! ### Who is killed -/

/-- As long as the program that leads a group may be alive, nobody of the group was killed, and nobody of
them is left when the group was killed. -/
structure Killed (x : Supervision) (id : RunId) (r : Run) : Prop where
  unkilled : r.watch.isLed = true → ∀ m ∈ x.members id, m.killed = false
  gone : r.watch = .killing → ∀ m ∈ x.members id, m.isAlive = false

theorem deliver_of_find (hr : x.supervisor.find? id = some r) (signal : GroupSignal) :
    x.deliver signal id =
      if r.process = group signal then (x.members id).map (·.receive signal) else x.members id := by
  unfold deliver
  rw [hr]
  simp

theorem members_of_not_peopled (hr : x.supervisor.find? id = some r) (h : x.isPeopled id = false)
    (hm : m ∈ x.members id) : m.isAlive = false := by
  rw [isPeopled_of_find hr] at h
  exact Bool.eq_false_iff.mpr fun halive => by
    rw [List.any_eq_true.mpr ⟨m, hm, halive⟩, Bool.or_true] at h
    cases h

theorem Killed.change (h : Killed x id r) (halone : Alone x) (hc : Change x y)
    (hr : x.supervisor.find? id = some r) (hr' : y.supervisor.find? id = some r')
    (ha : Alters x y id r r') : Killed y id r' where
  unkilled hled m hm := by
    have hled' := ha.isLed hled
    have hbefore := h.unkilled hled'
    generalize hms : y.members id = ms at hm
    have hp := hms ▸ hc.peoples id
    cases hp with
    | same => exact hbefore m hm
    | forks hpeopled =>
      rcases List.mem_append.mp hm with hm | hm
      · exact hbefore m hm
      · rw [List.mem_singleton.mp hm]
    | leaves k =>
      obtain ⟨m', hm', rfl | rfl⟩ := mem_leaves hm
      · exact hbefore _ hm'
      · exact hbefore m' hm'
    | @signalled j q q' signal hq hq' hattends =>
      rw [deliver_of_find hr] at hm
      split at hm
      · next hgroup =>
        by_cases hne : id = j
        · subst hne
          cases hq.symm.trans hr
          cases hq'.symm.trans hr'
          obtain ⟨m', hm', rfl⟩ := List.mem_map.mp hm
          cases hattends with
          | terminate hw hs => exact hbefore m' hm'
          | kill hw hd => cases hled
        · have hno := halone.others hq hattends hr hne hgroup
          rw [isPeopled_of_find hr, hled'] at hno
          cases hno
      · exact hbefore m hm
  gone hw m hm := by
    by_cases hbefore : r.watch = .killing
    · -- nobody was left, and so nobody is
      have hno : x.isPeopled id = false := by
        rw [isPeopled_of_find hr, hbefore]
        refine Bool.eq_false_iff.mpr fun hany => ?_
        obtain ⟨m', hm', halive⟩ := List.any_eq_true.mp hany
        cases (h.gone hbefore m' hm').symm.trans halive
      refine members_of_not_peopled hr' (Bool.eq_false_iff.mpr fun hyes => ?_) hm
      cases hno.symm.trans (isPeopled_change hc hr hyes)
    · obtain ⟨deed, hattends, hmembers⟩ := hc.watches hr hr' (by rw [hw]; exact Ne.symm hbefore)
      cases hattends with
      | kill hterminating hd =>
        rw [hmembers] at hm
        have hm : m ∈ x.deliver (.kill r.process) id := hm
        rw [deliver_of_find hr, if_pos (show r.process = group (.kill r.process) from rfl)] at hm
        obtain ⟨m', -, rfl⟩ := List.mem_map.mp hm
        simp [Member.receive, Member.isAlive]
      | @join e t d hjoining ho => cases t <;> cases hw
      | @abandon e t d hjoining hd ho => cases t <;> cases hw
      | _ => cases hw

theorem killed_after (grace : Duration) (σ : Nat → Move) (n : Nat)
    (hr : (after grace σ n).supervisor.find? id = some r) : Killed (after grace σ n) id r := by
  refine runs_keep (P := Killed) (fun x j process command hu => ⟨fun _ m hm => ?_, fun hw => nomatch hw⟩)
    (fun k j q q' hq hq' ha h => ?_) n hr
  · rw [hu.members] at hm
    cases hm
  · exact h.change (alone_after grace σ k) (change_after grace σ k) hq hq' ha

end DebugHost.Supervision
