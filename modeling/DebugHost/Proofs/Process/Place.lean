import DebugHost.Proofs.Process.Supervision

/-! # The place and the exits

A run has the place from its start until its watcher frees it (`placed_after`), so that no two runs have it
at a time, and every run that is not in the place has had its exit recorded before. The exit that the
supervisor remembers is that of the run that was recorded last: it is forgotten only for that of a run that
was started later. A recorded exit never changes (`exit?_stays`). -/

namespace DebugHost.Supervision

variable {x y : Supervision} {id : RunId} {r r' : Run} {e : Exit}

/-- Whether a run has freed the place, if there is such a run. -/
def released? (x : Supervision) (id : RunId) : Option Bool :=
  (x.supervisor.find? id).map (·.watch.isReleased)

/-- The exit that was recorded for a run. -/
def exit? (x : Supervision) (id : RunId) : Option Exit :=
  (x.supervisor.find? id).bind (·.watch.recorded?)

/-- The exit of a run that was started later has been recorded. -/
def FinishedAfter (x : Supervision) (id : RunId) : Prop :=
  ∃ j, id.number < j.number ∧ x.exit? j ≠ none

theorem released?_of_find (h : x.supervisor.find? id = some r) :
    x.released? id = some r.watch.isReleased := by
  unfold released?
  rw [h]
  rfl

theorem exit?_of_find (h : x.supervisor.find? id = some r) : x.exit? id = r.watch.recorded? := by
  unfold exit?
  rw [h]
  rfl

theorem exists_of_exit (h : x.exit? id = some e) :
    ∃ r, x.supervisor.find? id = some r ∧ r.watch.recorded? = some e :=
  Option.bind_eq_some_iff.mp h

theorem find?_isSome_iff : x.supervisor.find? id ≠ none ↔ x.released? id ≠ none := by
  unfold released?
  cases x.supervisor.find? id <;> simp

/-! ### What a watcher does to the place and the exits -/

/-- What a watcher does to the place and to the exits: nothing, or it records the exit, or it frees the
place after that. -/
inductive Stage (r r' : Run) (deed : Deed) : Prop where
  | keeps (hplace : ∀ id place, deed.place id place = place)
    (hlast : ∀ id last, deed.lastExit id last = last)
    (hrecorded : r'.watch.recorded? = r.watch.recorded?)
    (hreleased : r'.watch.isReleased = r.watch.isReleased)
  | records (e : Exit) (hdeed : deed = .record e) (hbefore : r.watch.recorded? = none)
    (hrecorded : r'.watch.recorded? = some e) (hheld : r.watch.isReleased = false)
    (hholds : r'.watch.isReleased = false)
  | frees (e : Exit) (hdeed : deed = .release) (hbefore : r.watch.recorded? = some e)
    (hrecorded : r'.watch.recorded? = some e) (hheld : r.watch.isReleased = false)
    (hreleased : r'.watch.isReleased = true)

theorem Attends.stage {grace now : Nat} {deed : Deed} (h : Attends grace now r r' deed) :
    Stage r r' deed := by
  cases h with
  | exited status hw => exact .keeps (fun _ _ => rfl) (fun _ _ => rfl) (by rw [hw]; rfl) (by rw [hw]; rfl)
  | terminate hw ha => exact .keeps (fun _ _ => rfl) (fun _ _ => rfl) (by rw [hw]; rfl) (by rw [hw]; rfl)
  | ended status hw =>
    rcases hw with ⟨d, hw⟩ | hw
    · exact .keeps (fun _ _ => rfl) (fun _ _ => rfl) (by rw [hw]; rfl) (by rw [hw]; rfl)
    · exact .keeps (fun _ _ => rfl) (fun _ _ => rfl) (by rw [hw]; rfl) (by rw [hw]; rfl)
  | kill hw hd => exact .keeps (fun _ _ => rfl) (fun _ _ => rfl) (by rw [hw]; rfl) (by rw [hw]; rfl)
  | @join e t d hw ho =>
    exact .keeps (fun _ _ => rfl) (fun _ _ => rfl) (by rw [hw]; cases t <;> rfl)
      (by rw [hw]; cases t <;> rfl)
  | @abandon e t d hw hd ho =>
    exact .keeps (fun _ _ => rfl) (fun _ _ => rfl) (by rw [hw]; cases t <;> rfl)
      (by rw [hw]; cases t <;> rfl)
  | @record e hw => exact .records e rfl (by rw [hw]; rfl) rfl (by rw [hw]; rfl) rfl
  | @release e hw => exact .frees e rfl (by rw [hw]; rfl) rfl (by rw [hw]; rfl) rfl
  | tell hw => exact .keeps (fun _ _ => rfl) (fun _ _ => rfl) (by rw [hw]; rfl) (by rw [hw]; rfl)
  | complete hw => exact .keeps (fun _ _ => rfl) (fun _ _ => rfl) (by rw [hw]; rfl) (by rw [hw]; rfl)

theorem watch_feed (r : Run) (t : Stream) (chunk : List UInt8) : (r.feed t chunk).watch = r.watch := by
  unfold Run.feed
  split
  · rfl
  · cases t <;> rfl

theorem watch_finish (r : Run) (t : Stream) : (r.finish t).watch = r.watch := by
  unfold Run.finish
  split
  · rfl
  · cases t <;> rfl

/-! ### Exits are for good -/

theorem Alters.recorded (h : Alters x y id r r') (he : r.watch.recorded? = some e) :
    r'.watch.recorded? = some e := by
  cases h with
  | same => exact he
  | attends ha hu =>
    cases ha.stage with
    | keeps hplace hlast hrecorded hreleased => exact hrecorded.trans he
    | records e' hdeed hbefore hrecorded hheld hholds =>
      rw [hbefore] at he
      cases he
    | frees e' hdeed hbefore hrecorded hheld hreleased => exact hrecorded.trans (hbefore.symm.trans he)
  | cancelled hme hu => exact he
  | fed chunk ho => exact (congrArg Watch.recorded? (watch_feed r _ chunk)).trans he
  | finished ho => exact (congrArg Watch.recorded? (watch_finish r _)).trans he

theorem Change.exit? (hc : Change x y) (h : x.exit? id = some e) : y.exit? id = some e := by
  obtain ⟨r, hr, he⟩ := exists_of_exit h
  obtain ⟨r', hr', halters⟩ := hc.alters hr
  exact (exit?_of_find hr').trans (halters.recorded he)

theorem Change.finishedAfter (hc : Change x y) (h : x.FinishedAfter id) : y.FinishedAfter id := by
  obtain ⟨j, hj, he⟩ := h
  obtain ⟨e, he⟩ := Option.ne_none_iff_exists'.mp he
  exact ⟨j, hj, by rw [hc.exit? he]; simp⟩

/-! ### One run has the place -/

/-- The place is that of the run that was started last, until it frees it. The last exit is that of the
run that was recorded last. -/
structure Placed (x : Supervision) : Prop where
  counts : 0 < x.supervisor.next
  numbers : ∀ id, x.released? id ≠ none ↔ 0 < id.number ∧ id.number < x.supervisor.next
  held : ∀ id, x.supervisor.place = some id ↔ x.released? id = some false
  latest : ∀ id, x.supervisor.place = some id → id.number + 1 = x.supervisor.next
  unreleased : ∀ id, x.released? id = some true → x.exit? id ≠ none
  last : ∀ id e, x.exit? id = some e → x.supervisor.lastExit = some (id, e) ∨ x.FinishedAfter id
  own : ∀ id e, x.supervisor.lastExit = some (id, e) → x.exit? id = some e

theorem placed_new (grace : Duration) : Placed (new grace) where
  counts := Nat.zero_lt_one
  numbers id := ⟨fun h => absurd rfl h, fun h => absurd h.2 (Nat.not_lt_of_le h.1)⟩
  held id := ⟨fun h => (by cases h), fun h => (by cases h)⟩
  latest id h := by cases h
  unreleased id h := by cases h
  last id e h := by cases h
  own id e h := by cases h

theorem Placed.of_same (h : Placed x) (hreleased : ∀ id, y.released? id = x.released? id)
    (hexit : ∀ id, y.exit? id = x.exit? id) (hplace : y.supervisor.place = x.supervisor.place)
    (hlast : y.supervisor.lastExit = x.supervisor.lastExit)
    (hnext : y.supervisor.next = x.supervisor.next) : Placed y where
  counts := hnext ▸ h.counts
  numbers id := by rw [hreleased, hnext]; exact h.numbers id
  held id := by rw [hplace, hreleased]; exact h.held id
  latest id hp := hnext ▸ h.latest id (hplace ▸ hp)
  unreleased id hr := by rw [hexit]; exact h.unreleased id (hreleased id ▸ hr)
  last id e he := by
    rw [hlast]
    refine (h.last id e (hexit id ▸ he)).imp_right fun ⟨j, hj, hf⟩ => ⟨j, hj, ?_⟩
    rw [hexit]
    exact hf
  own id e hl := (hexit id).trans (h.own id e (hlast ▸ hl))

/-- A run that is not the latest is not in the place. -/
theorem Placed.find_next (h : Placed x) : x.supervisor.find? ⟨x.supervisor.next⟩ = none := by
  by_contra hne
  exact absurd ((h.numbers _).mp (find?_isSome_iff.mp hne)).2 (Nat.lt_irrefl _)

theorem Placed.place_none (h : Placed x) (hp : x.supervisor.current? = none) :
    x.supervisor.place = none := by
  by_contra hne
  obtain ⟨id, hid⟩ := Option.ne_none_iff_exists'.mp hne
  have hr : x.released? id ≠ none := by rw [(h.held id).mp hid]; simp
  unfold Supervisor.current? at hp
  rw [hid, Option.bind_some] at hp
  exact find?_isSome_iff.mpr hr hp

/-- A run that has freed the place is not in it. -/
theorem Placed.not_held (h : Placed x) (hr : x.released? id = some true) :
    x.supervisor.place ≠ some id := by
  intro hp
  cases hr.symm.trans ((h.held id).mp hp)

/-- The runs after a command was started. -/
theorem released?_enroll (h : Placed x) (c : Command) (process : Nat) (j : RunId) :
    ({ x with supervisor := enroll x.supervisor c process } : Supervision).released? j =
      if j = ⟨x.supervisor.next⟩ then some false else x.released? j := by
  unfold released?
  rw [find?_enroll]
  split
  · next hj =>
    rw [hj, h.find_next]
    rfl
  · rw [Option.or_none]

theorem exit?_enroll (h : Placed x) (c : Command) (process : Nat) (j : RunId) :
    ({ x with supervisor := enroll x.supervisor c process } : Supervision).exit? j = x.exit? j := by
  unfold exit?
  rw [find?_enroll]
  split
  · next hj =>
    rw [hj, h.find_next]
    rfl
  · rw [Option.or_none]

theorem Placed.starts (h : Placed x) (hp : x.supervisor.place = none) (c : Command) (process : Nat) :
    Placed { x with supervisor := enroll x.supervisor c process } where
  counts := Nat.succ_pos _
  numbers id := by
    rw [released?_enroll h]
    show _ ↔ 0 < id.number ∧ id.number < x.supervisor.next + 1
    split
    · next hid =>
      subst hid
      exact ⟨fun _ => ⟨h.counts, Nat.lt_succ_self _⟩, fun _ => by simp⟩
    · next hid =>
      have hne : id.number ≠ x.supervisor.next := fun hn => hid (congrArg RunId.mk hn)
      rw [h.numbers]
      omega
  held id := by
    rw [released?_enroll h]
    show some ⟨x.supervisor.next⟩ = some id ↔ _
    split
    · next hid => exact ⟨fun _ => rfl, fun _ => congrArg some hid.symm⟩
    · next hid =>
      refine ⟨fun hs => absurd (Option.some.inj hs).symm hid, fun hr => ?_⟩
      have hheld := (h.held id).mpr hr
      rw [hp] at hheld
      cases hheld
  latest id hid := by
    obtain rfl := Option.some.inj hid
    rfl
  unreleased id hr := by
    rw [exit?_enroll h]
    rw [released?_enroll h] at hr
    split at hr
    · cases hr
    · exact h.unreleased id hr
  last id e he := by
    rw [exit?_enroll h] at he
    refine (h.last id e he).imp_right fun ⟨j, hj, hf⟩ => ⟨j, hj, ?_⟩
    rw [exit?_enroll h]
    exact hf
  own id e hl := (exit?_enroll h c process id).trans (h.own id e hl)

/-- The exit of the run in the place is recorded. All other runs were started before. -/
theorem Placed.records (h : Placed x) (hheld : x.released? id = some false)
    (hreleased : ∀ j, y.released? j = x.released? j)
    (hexit : ∀ j, y.exit? j = if j = id then some e else x.exit? j)
    (hplace : y.supervisor.place = x.supervisor.place) (hlast : y.supervisor.lastExit = some (id, e))
    (hnext : y.supervisor.next = x.supervisor.next) : Placed y where
  counts := hnext ▸ h.counts
  numbers j := by rw [hreleased, hnext]; exact h.numbers j
  held j := by rw [hplace, hreleased]; exact h.held j
  latest j hj := hnext ▸ h.latest j (hplace ▸ hj)
  unreleased j hj := by
    rw [hexit]
    split
    · simp
    · exact h.unreleased j (hreleased j ▸ hj)
  last j e' hj := by
    rw [hexit] at hj
    split at hj
    · next heq =>
      cases hj
      exact Or.inl (heq ▸ hlast)
    · next hne =>
      right
      have hthere : x.released? j ≠ none := by
        obtain ⟨r, hr, -⟩ := exists_of_exit hj
        rw [released?_of_find hr]
        simp
      have hlatest := h.latest id ((h.held id).mpr hheld)
      have hbelow := ((h.numbers j).mp hthere).2
      have hother : j.number ≠ id.number := fun hn => hne (congrArg RunId.mk hn)
      refine ⟨id, by omega, ?_⟩
      rw [hexit, if_pos rfl]
      simp
  own j e' hj := by
    cases hlast.symm.trans hj
    rw [hexit, if_pos rfl]

/-- The run in the place frees it, when its exit is recorded. -/
theorem Placed.frees (h : Placed x) (hheld : x.released? id = some false) (he : x.exit? id ≠ none)
    (hreleased : ∀ j, y.released? j = if j = id then some true else x.released? j)
    (hexit : ∀ j, y.exit? j = x.exit? j) (hplace : y.supervisor.place = none)
    (hlast : y.supervisor.lastExit = x.supervisor.lastExit)
    (hnext : y.supervisor.next = x.supervisor.next) : Placed y where
  counts := hnext ▸ h.counts
  numbers j := by
    rw [hreleased, hnext, ← h.numbers j]
    split
    · next hj => rw [hj, hheld]; simp
    · exact Iff.rfl
  held j := by
    rw [hplace, hreleased]
    split
    · exact ⟨fun hp => (nomatch hp), fun hj => (nomatch hj)⟩
    · next hne =>
      refine ⟨fun hp => (nomatch hp), fun hj => absurd ?_ hne⟩
      exact Option.some.inj (((h.held j).mpr hj).symm.trans ((h.held id).mpr hheld))
  latest j hj := by
    rw [hplace] at hj
    cases hj
  unreleased j hj := by
    rw [hexit]
    rw [hreleased] at hj
    split at hj
    · next heq => rw [heq]; exact he
    · exact h.unreleased j hj
  last j e' hj := by
    rw [hlast]
    refine (h.last j e' (hexit j ▸ hj)).imp_right fun ⟨i, hi, hf⟩ => ⟨i, hi, ?_⟩
    rw [hexit]
    exact hf
  own j e' hj := (hexit j).trans (h.own j e' (hlast ▸ hj))

/-! The views of a supervision after a watcher has done something -/

section Done

variable {s : Supervisor} {deed : Deed} (hs : Done x.supervisor s id r' deed) (hy : y.supervisor = s)

include hs hy

theorem released?_done (j : RunId) :
    y.released? j = if j = id then some r'.watch.isReleased else x.released? j := by
  unfold released?
  rw [hy, hs.find]
  split <;> rfl

theorem exit?_done (j : RunId) : y.exit? j = if j = id then r'.watch.recorded? else x.exit? j := by
  unfold exit?
  rw [hy, hs.find]
  split <;> rfl

theorem Placed.attends (h : Placed x) (hr : x.supervisor.find? id = some r)
    (hstage : Stage r r' deed) : Placed y := by
  have hreleased := released?_done hs hy
  have hexit := exit?_done hs hy
  have hrel := released?_of_find hr
  have hex := exit?_of_find hr
  have hnext : y.supervisor.next = x.supervisor.next := by rw [hy, hs.next]
  cases hstage with
  | keeps hplace hlast hrecorded hrest =>
    refine h.of_same (fun j => ?_) (fun j => ?_) (by rw [hy, hs.place, hplace])
      (by rw [hy, hs.last, hlast]) hnext
    · rw [hreleased]
      split
      · next hj => rw [hj, hrel, hrest]
      · rfl
    · rw [hexit]
      split
      · next hj => rw [hj, hex, hrecorded]
      · rfl
  | records e hdeed hbefore hrecorded hheld hholds =>
    subst hdeed
    refine h.records (hrel.trans (congrArg some hheld)) (fun j => ?_) (fun j => ?_)
      (by rw [hy, hs.place]; rfl) (by rw [hy, hs.last]; rfl) hnext
    · rw [hreleased]
      split
      · next hj => rw [hj, hrel, hheld, hholds]
      · rfl
    · rw [hexit, hrecorded]
  | frees e hdeed hbefore hrecorded hheld hdone =>
    subst hdeed
    have hfalse : x.released? id = some false := hrel.trans (congrArg some hheld)
    refine h.frees hfalse ?_ (fun j => ?_) (fun j => ?_) ?_ (by rw [hy, hs.last]; rfl) hnext
    · rw [hex, hbefore]
      simp
    · rw [hreleased, hdone]
    · rw [hexit]
      split
      · next hj => rw [hj, hex, hrecorded, hbefore]
      · rfl
    · rw [hy, hs.place]
      exact if_pos ((h.held id).mpr hfalse)

end Done

/-- A supervision in which the run `id` is another one with the same watch. -/
theorem Placed.of_watch (h : Placed x) {s : Supervisor} (hr : x.supervisor.find? id = some r)
    (hfind : ∀ j, s.find? j = if j = id then some r' else x.supervisor.find? j)
    (hwatch : r'.watch = r.watch) (hplace : s.place = x.supervisor.place)
    (hlast : s.lastExit = x.supervisor.lastExit) (hnext : s.next = x.supervisor.next)
    (hy : y.supervisor = s) : Placed y := by
  subst hy
  refine h.of_same (fun j => ?_) (fun j => ?_) hplace hlast hnext
  · unfold released?
    rw [hfind]
    split
    · next hj =>
      rw [hj, hr]
      exact congrArg (fun w => some (Watch.isReleased w)) hwatch
    · rfl
  · unfold exit?
    rw [hfind]
    split
    · next hj =>
      rw [hj, hr]
      exact congrArg Watch.recorded? hwatch
    · rfl

theorem Placed.steps (h : Placed x) (me : Nat) {c c' : Call} {s : Supervisor}
    (hs : Steps x c c' s) : Placed (x.put me c' s) := by
  cases hs with
  | @cancels id =>
    cases hr : x.supervisor.find? id with
    | none =>
      refine h.of_same (fun j => ?_) (fun j => ?_) rfl rfl rfl
      all_goals
        have hfind : (x.supervisor.cancel id).find? j = x.supervisor.find? j := by
          rw [find?_cancel]
          split
          · next hj => rw [hj, hr]; rfl
          · rfl
      · exact congrArg (Option.map fun r => r.watch.isReleased) hfind
      · exact congrArg (Option.bind · fun r => r.watch.recorded?) hfind
    | some r =>
      have hfind := find?_modified hr (f := fun r => { r with stopAsked := true }) fun _ => rfl
      exact h.of_watch hr hfind rfl rfl rfl rfl rfl
  | _ => exact h.of_same (fun _ => rfl) (fun _ => rfl) rfl rfl rfl

theorem Placed.change (h : Placed x) (hc : Change x y) : Placed y := by
  cases hc with
  | starts c hp hfree => exact h.starts (h.place_none hp) c _
  | steps me hme hs => exact h.steps me hs
  | attends hr ha hs => exact h.attends hs rfl hr ha.stage
  | @reads id r t chunk hr ho =>
    exact h.of_watch hr (find?_modified hr fun r => feed_id r t chunk) (watch_feed r t chunk)
      rfl rfl rfl rfl
  | @finishes id r t hr ho =>
    exact h.of_watch hr (find?_modified hr fun r => finish_id r t) (watch_finish r t) rfl rfl rfl rfl
  | _ => exact h.of_same (fun _ => rfl) (fun _ => rfl) rfl rfl rfl

/-- **One run has the place, and the exit of every other run has been recorded.** -/
theorem placed_after (grace : Duration) (σ : Nat → Move) (n : Nat) : Placed (after grace σ n) :=
  after_keeps grace (placed_new grace) (fun _ _ hc h => h.change hc) σ n

/-- **A recorded exit never changes.** -/
theorem exit?_stays {grace : Duration} {σ : Nat → Move} {n m : Nat} (hnm : n ≤ m)
    (he : (after grace σ n).exit? id = some e) : (after grace σ m).exit? id = some e :=
  after_stays (P := fun x => x.exit? id = some e) (fun _ _ hc h => hc.exit? h) hnm he

end DebugHost.Supervision
