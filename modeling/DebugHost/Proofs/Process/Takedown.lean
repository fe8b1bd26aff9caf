import DebugHost.Proofs.Process.Groups
import DebugHost.Proofs.Process.Progress

/-! # How a group is taken down

A watcher that ends its run asks all processes of the group to end, and kills them when the deadline has
passed. But it waits only for the program that leads the group: if that one ends in time, the watcher is done,
and whoever of the group goes on is never killed (`takedown`). So nobody of the group is left when the watcher
is done just if the group was killed or everybody of it has ended by himself, and a process that does not end
when it is asked to may be there beside the next run. -/

namespace DebugHost.Supervision

variable {x y : Supervision} {id : RunId} {r r' : Run} {m : Member} {deed : Deed} {e : Exit}
  {grace : Duration} {σ : Nat → Move} {n k g now : Nat}

/-! ### One step -/

theorem isAlive_iff_left (h : m.killed = false) : m.isAlive = !m.left := by
  unfold Member.isAlive
  rw [h]
  simp

/-- A watcher that is done with the end of its run does nothing to the group. -/
theorem Attends.done (ha : Attends g now r r' deed) (hw' : r'.watch.isEnding = false) :
    deed.signal? = none := by
  cases ha with
  | terminate hwaiting hs => cases hw'
  | kill hterminating hd => cases hw'
  | _ => rfl

theorem members_done (hc : Change x y) (hr : x.supervisor.find? id = some r)
    (hr' : y.supervisor.find? id = some r') (hw : r.watch.isEnding = true)
    (hw' : r'.watch.isEnding = false) : y.members = x.members := by
  obtain ⟨deed, ha, hmembers⟩ := hc.watches hr hr' fun heq => by
    rw [heq] at hw'
    cases hw'.symm.trans hw
  rw [hmembers, ha.done hw']
  rfl

theorem isEnding_cases {w : Watch} (h : w.isEnding = true) :
    w = .killing ∨ ∃ d, w = .terminating d := by
  cases w with
  | killing => exact Or.inl rfl
  | terminating d => exact Or.inr ⟨d, rfl⟩
  | _ => cases h

theorem left_of_not_isEnding {w : Watch} (h : w.isEnding = false) (hleft : w.left < 8) : w.left ≤ 6 := by
  cases w with
  | waiting => simp [Watch.left] at hleft
  | terminating d => cases h
  | killing => cases h
  | joining e t d => cases t <;> simp [Watch.left]
  | _ => simp [Watch.left]

/-! ### Whoever is spared -/

/-- Everybody of a group who was killed had ended before, so that the signal has done nothing to him. -/
def Spared (x : Supervision) (id : RunId) : Prop := ∀ m ∈ x.members id, m.killed = true → m.left = true

theorem Spared.isAlive (h : Spared x id) (hm : m ∈ x.members id) : m.isAlive = !m.left := by
  unfold Member.isAlive
  cases hk : m.killed with
  | false => simp
  | true => simp [h m hm hk]

/-- A watcher that knows the exit of its program signals nobody. -/
theorem Attends.led (ha : Attends g now r r' deed) (hleft : r.watch.left ≤ 6) : deed.signal? = none := by
  cases ha with
  | terminate hw hs =>
    rw [hw] at hleft
    exact absurd hleft (by decide)
  | kill hw hd =>
    rw [hw] at hleft
    simp [Watch.left] at hleft
  | _ => rfl

/-- Whoever is spared when the program has exited is so later on. -/
theorem Spared.change (h : Spared x id) (halone : Alone x) (hc : Change x y)
    (hr : x.supervisor.find? id = some r) (hleft : r.watch.left ≤ 6) : Spared y id := by
  intro m hm hk
  generalize hms : y.members id = ms at hm
  have hp := hms ▸ hc.peoples id
  cases hp with
  | same => exact h m hm hk
  | forks hpeopled =>
    rcases List.mem_append.mp hm with hm | hm
    · exact h m hm hk
    · rw [List.mem_singleton.mp hm] at hk
      cases hk
  | leaves k =>
    obtain ⟨m', hm', rfl | rfl⟩ := mem_leaves hm
    · exact h _ hm' hk
    · unfold Member.leave
      rw [h m' hm' hk]
      rfl
  | @signalled j q q' signal hq hq' ha =>
    rw [deliver_of_find hr] at hm
    split at hm
    · next hgroup =>
      by_cases hne : id = j
      · subst hne
        cases hq.symm.trans hr
        cases ha.led hleft
      · -- the group has no living process
        obtain ⟨m', hm', rfl⟩ := List.mem_map.mp hm
        have hdead := members_of_not_peopled hr (halone.others hq ha hr hne hgroup) hm'
        rw [h.isAlive hm'] at hdead
        have hgone : m'.left = true := by simpa using hdead
        cases signal <;> exact hgone
    · exact h m hm hk

theorem spared_later (hr : (after grace σ n).supervisor.find? id = some r) (hleft : r.watch.left ≤ 6)
    (h : Spared (after grace σ n) id) (hnk : n ≤ k) : Spared (after grace σ k) id := by
  have hboth : Spared (after grace σ k) id ∧
      ∃ r', (after grace σ k).supervisor.find? id = some r' ∧ r'.watch.left ≤ 6 := by
    induction hnk with
    | refl => exact ⟨h, r, hr, hleft⟩
    | @step k _ ih =>
      obtain ⟨hspared, q, hq, hq6⟩ := ih
      obtain ⟨q', hq', ha⟩ := (change_after grace σ k).alters hq
      exact ⟨hspared.change (alone_after grace σ k) (change_after grace σ k) hq hq6, q', hq',
        Nat.le_trans ha.left_le hq6⟩
  exact hboth.1

/-- A group without a living process stays so. -/
theorem not_isPeopled_later (hr : (after grace σ n).supervisor.find? id = some r)
    (h : (after grace σ n).isPeopled id = false) (hnk : n ≤ k) :
    (after grace σ k).isPeopled id = false ∧ ∃ r', (after grace σ k).supervisor.find? id = some r' := by
  induction hnk with
  | refl => exact ⟨h, r, hr⟩
  | @step k _ ih =>
    obtain ⟨hno, q, hq⟩ := ih
    obtain ⟨q', hq', -⟩ := (change_after grace σ k).alters hq
    refine ⟨Bool.eq_false_iff.mpr fun hyes => ?_, q', hq'⟩
    cases hno.symm.trans (isPeopled_change (change_after grace σ k) hq hyes)

theorem not_isPeopled_of_killing (h : Killed x id r) (hr : x.supervisor.find? id = some r)
    (hw : r.watch = .killing) : x.isPeopled id = false := by
  rw [isPeopled_of_find hr, hw]
  refine Bool.eq_false_iff.mpr fun hany => ?_
  obtain ⟨m, hm, halive⟩ := List.any_eq_true.mp hany
  cases (h.gone hw m hm).symm.trans halive

/-- A watcher that asks its group to end asks everybody of it. -/
theorem members_terminating (hc : Change x y) (hr : x.supervisor.find? id = some r)
    (hr' : y.supervisor.find? id = some r') (hw : r.watch = .waiting) {d : Nat}
    (hw' : r'.watch = .terminating d) :
    y.members id = (x.members id).map (·.receive (.terminate r.process)) := by
  obtain ⟨deed, ha, hmembers⟩ := hc.watches hr hr' (by rw [hw, hw']; simp)
  cases ha with
  | terminate hwaiting hs =>
    rw [hmembers]
    exact (deliver_of_find hr _).trans (if_pos rfl)
  | @join e t d' hjoining ho => cases hw.symm.trans hjoining
  | @abandon e t d' hjoining hd ho => cases hw.symm.trans hjoining
  | _ => cases hw'

/-- A watcher kills its group only when the deadline has passed, and then everybody of it. -/
theorem members_killing (hc : Change x y) (hr : x.supervisor.find? id = some r)
    (hr' : y.supervisor.find? id = some r') {d : Nat} (hw : r.watch = .terminating d)
    (hw' : r'.watch = .killing) :
    d ≤ x.now ∧ y.members id = (x.members id).map (·.receive (.kill r.process)) := by
  obtain ⟨deed, ha, hmembers⟩ := hc.watches hr hr' (by rw [hw, hw']; simp)
  cases ha with
  | kill hterminating hd =>
    cases hw.symm.trans hterminating
    rw [hmembers]
    exact ⟨hd, (deliver_of_find hr _).trans (if_pos rfl)⟩
  | @join e t d' hjoining ho => cases hw.symm.trans hjoining
  | @abandon e t d' hjoining hd ho => cases hw.symm.trans hjoining
  | _ => cases hw'

/-- **Nobody is left when the watcher is done just if the group was killed or everybody has ended.** -/
theorem none_left_iff (h : Killed x id r) (hc : Change x y) (hr : x.supervisor.find? id = some r)
    (hr' : y.supervisor.find? id = some r') (hw : r.watch.isEnding = true)
    (hw' : r'.watch.isEnding = false) :
    (∀ m ∈ y.members id, m.isAlive = false) ↔ r.watch = .killing ∨ ∀ m ∈ x.members id, m.left = true := by
  rw [members_done hc hr hr' hw hw']
  rcases isEnding_cases hw with hkilling | ⟨d, hterminating⟩
  · exact ⟨fun _ => Or.inl hkilling, fun _ => h.gone hkilling⟩
  · have hunkilled := h.unkilled (by rw [hterminating]; rfl)
    constructor
    · intro hnone
      refine Or.inr fun m hm => ?_
      have hdead := hnone m hm
      rw [isAlive_iff_left (hunkilled m hm)] at hdead
      simpa using hdead
    · rintro (hkilling | hleft) m hm
      · cases hterminating.symm.trans hkilling
      · rw [isAlive_iff_left (hunkilled m hm), hleft m hm]
        rfl

/-! ### All together -/

/-- A program makes a process that does not end when it is asked to, and ends itself when it is. The next
program is started when its run is over. -/
def leftBehind : List Move :=
  [.start listing (.ok 4), .fork ⟨1⟩, .stop 0 ⟨1⟩, .step 0, .step 0, .step 0, .watch ⟨1⟩ none] ++
    teardown ⟨1⟩ ++ [.step 0, .start listing (.ok 5)]

/-- A process that does not end when it is asked to is alive when the watcher is done. -/
theorem alive_when_done {c : Call} (h : Looks x grace (torn .waiting false) 0 c)
    (hmembers : x.members ⟨1⟩ = [{}]) : ∃ r r',
    (x.move (.watch ⟨1⟩ none)).supervisor.find? ⟨1⟩ = some r ∧ r.watch.isEnding = true ∧
    ((x.move (.watch ⟨1⟩ none)).move (.watch ⟨1⟩ (some (.code 0)))).supervisor.find? ⟨1⟩ = some r' ∧
    r'.watch.isEnding = false ∧
    ((x.move (.watch ⟨1⟩ none)).move (.watch ⟨1⟩ (some (.code 0)))).members ⟨1⟩ = [{ asked := true }] := by
  have hasked : Looks (x.move (.watch ⟨1⟩ none)) grace
      (torn (.terminating (0 + grace.millis)) false) 0 c := h.watch none rfl rfl rfl
  have hended : Looks ((x.move (.watch ⟨1⟩ none)).move (.watch ⟨1⟩ (some (.code 0)))) grace
      (torn (.joining (.ofStatus (.code 0) true) .out (0 + grace.millis)) false) 0 c :=
    hasked.watch (some (.code 0)) rfl rfl rfl
  refine ⟨_, _, hasked.find? rfl, rfl, hended.find? rfl, rfl, ?_⟩
  rw [members_done (change_move _ _) (hasked.find? rfl) (hended.find? rfl) rfl rfl,
    members_terminating (change_move _ _) (h.find? rfl) (hasked.find? rfl) rfl rfl, hmembers]
  rfl

theorem survivor (grace : Duration) : ∃ σ n id r r', (after grace σ n).supervisor.find? id = some r ∧
    r.watch.isEnding = true ∧ (after grace σ (n + 1)).supervisor.find? id = some r' ∧
    r'.watch.isEnding = false ∧
    ∃ m ∈ (after grace σ (n + 1)).members id, m.asked = true ∧ m.isAlive = true := by
  let σ (k : Nat) : Move := leftBehind.getD k (.leave ⟨0⟩ 0)
  have hstopped : Looks (after grace σ 6) grace (torn .waiting false) 0
      (.waiting ⟨1⟩ (0 + (grace.millis * 2 + Supervisor.slack))) := ⟨rfl, rfl, rfl⟩
  obtain ⟨r, r', hr, hw, hr', hw', hmembers⟩ := alive_when_done hstopped rfl
  have hasked : after grace σ 7 = (after grace σ 6).move (.watch ⟨1⟩ none) := after_succ grace σ 6
  have hended : after grace σ (7 + 1) = (after grace σ 7).move (.watch ⟨1⟩ (some (.code 0))) :=
    after_succ grace σ 7
  rw [← hasked] at hr hr' hmembers
  rw [← hended] at hr' hmembers
  refine ⟨σ, 7, ⟨1⟩, r, r', hr, hw, hr', hw', { asked := true }, ?_, rfl, rfl⟩
  rw [hmembers]
  exact List.mem_singleton_self _

/-- What becomes of the processes of a group whose run is stopped. -/
structure Takedown (grace : Duration) : Prop where
  /-- They are all asked to end. -/
  asked : ∀ σ n id r r' d, (after grace σ n).supervisor.find? id = some r → r.watch = .waiting →
    (after grace σ (n + 1)).supervisor.find? id = some r' → r'.watch = .terminating d →
    ∀ m ∈ (after grace σ (n + 1)).members id, m.asked = true
  /-- They are all killed, but only if the program that leads them has not ended when the deadline
  passes. -/
  killed : ∀ σ n id r r' d, (after grace σ n).supervisor.find? id = some r → r.watch = .terminating d →
    (after grace σ (n + 1)).supervisor.find? id = some r' → r'.watch = .killing →
    d ≤ (after grace σ n).now ∧ ∀ m ∈ (after grace σ (n + 1)).members id, m.killed = true
  /-- When the watcher is done, none of them is alive just if they were killed or all of them have ended by
  themselves. -/
  done : ∀ σ n id r r', (after grace σ n).supervisor.find? id = some r → r.watch.isEnding = true →
    (after grace σ (n + 1)).supervisor.find? id = some r' → r'.watch.isEnding = false →
    ((∀ m ∈ (after grace σ (n + 1)).members id, m.isAlive = false) ↔
      r.watch = .killing ∨ ∀ m ∈ (after grace σ n).members id, m.left = true)
  /-- Where they were killed, none of them is alive ever after. -/
  gone : ∀ σ n k id r, n ≤ k → (after grace σ n).supervisor.find? id = some r → r.watch = .killing →
    ∀ m ∈ (after grace σ k).members id, m.isAlive = false
  /-- Where the program that leads them ends in time, they are never killed: each is alive until it ends
  by itself. -/
  spared : ∀ σ n k id r r' d, (after grace σ n).supervisor.find? id = some r →
    r.watch = .terminating d → (after grace σ (n + 1)).supervisor.find? id = some r' →
    r'.watch.isEnding = false → n < k → ∀ m ∈ (after grace σ k).members id, m.isAlive = !m.left
  /-- So one may be alive that was asked to end, when the watcher is done. -/
  survives : ∃ σ n id r r', (after grace σ n).supervisor.find? id = some r ∧ r.watch.isEnding = true ∧
    (after grace σ (n + 1)).supervisor.find? id = some r' ∧ r'.watch.isEnding = false ∧
    ∃ m ∈ (after grace σ (n + 1)).members id, m.asked = true ∧ m.isAlive = true

/-- **A group is killed only if the program that leads it does not end in time.** -/
theorem takedown (grace : Duration) : Takedown grace where
  asked σ n id r r' d hr hw hr' hw' m hm := by
    have hmembers := members_terminating (change_after grace σ n) hr hr' hw hw'
    obtain ⟨m', -, rfl⟩ := List.mem_map.mp (hmembers ▸ hm)
    rfl
  killed σ n id r r' d hr hw hr' hw' := by
    obtain ⟨hd, hmembers⟩ := members_killing (change_after grace σ n) hr hr' hw hw'
    refine ⟨hd, fun m hm => ?_⟩
    obtain ⟨m', -, rfl⟩ := List.mem_map.mp (hmembers ▸ hm)
    rfl
  done σ n id r r' hr hw hr' hw' :=
    none_left_iff (killed_after grace σ n hr) (change_after grace σ n) hr hr' hw hw'
  gone σ n k id r hnk hr hw := by
    have hno := not_isPeopled_of_killing (killed_after grace σ n hr) hr hw
    obtain ⟨hnever, r', hr'⟩ := not_isPeopled_later hr hno hnk
    exact fun m hm => members_of_not_peopled hr' hnever hm
  spared σ n k id r r' d hr hw hr' hw' hnk := by
    have hending : r.watch.isEnding = true := by rw [hw]; rfl
    have hsame : (after grace σ (n + 1)).members = (after grace σ n).members :=
      members_done (change_after grace σ n) hr hr' hending hw'
    have hspared : Spared (after grace σ (n + 1)) id := by
      intro m hm hkilled
      rw [hsame] at hm
      cases hkilled.symm.trans ((killed_after grace σ n hr).unkilled (by rw [hw]; rfl) m hm)
    have hleft : r'.watch.left ≤ 6 := by
      obtain ⟨q, hq, ha⟩ := (change_after grace σ n).alters hr
      cases hq.symm.trans hr'
      refine left_of_not_isEnding hw' ?_
      rcases ha.left with hsame | hlt
      · rw [hsame, hending] at hw'
        cases hw'
      · rw [hw] at hlt
        exact hlt
    exact fun m hm => (spared_later hr' hleft hspared hnk).isAlive hm
  survives := survivor grace

example : let x := leftBehind.foldl move (new ⟨100⟩)
    x.members ⟨1⟩ = [{ asked := true }] ∧ x.exit? ⟨1⟩ = some ⟨some 0, .stopped⟩ ∧
      x.supervisor.place = some ⟨2⟩ := by
  decide +kernel

end DebugHost.Supervision
