import DebugHost.Proofs.Process.Place

/-! # What a stop comes to

A call that stops a run comes to the exit of that run and of no other, or to nothing if the exit of a run
that was started later has been recorded since (`fits_after`). It looks for its run in the place first and
for the recorded exit later, and in between the run may be recorded, may free the place, and others may be
started: what carries the proof is that a run that is not in the place has had its exit recorded.

Only a call for a run that it has found in the place asks for the stop of a run, so that a run is asked to
stop only if a call was made for it, and only then its exit can have the cause that it was stopped
(`meant_after`). -/

namespace DebugHost.Supervision

variable {x y : Supervision} {id : RunId} {r r' : Run} {e : Exit}

/-! ### What is remembered of a run -/

theorem Placed.exit_of_recordedExit (h : Placed x) (he : x.supervisor.recordedExit id = some e) :
    x.exit? id = some e := by
  obtain ⟨⟨j, e'⟩, hl, rfl⟩ := Option.map_eq_some_iff.mp he
  obtain ⟨hlast, hj⟩ := Option.filter_eq_some_iff.mp hl
  obtain rfl : j = id := of_decide_eq_true hj
  exact h.own j e' hlast

theorem Placed.recordedExit (h : Placed x) (he : x.exit? id = some e) :
    x.supervisor.recordedExit id = some e ∨
      x.supervisor.recordedExit id = none ∧ x.FinishedAfter id := by
  rcases h.last id e he with hlast | hafter
  · left
    unfold Supervisor.recordedExit
    rw [hlast]
    simp
  · cases hr : x.supervisor.recordedExit id with
    | none => exact Or.inr ⟨rfl, hafter⟩
    | some e' => exact Or.inl ((h.exit_of_recordedExit hr).symm.trans he)

/-- An exit that was told is recorded, and its run has left the place. -/
theorem exit_of_toldExit (he : x.supervisor.toldExit? id = some e) :
    x.exit? id = some e ∧ x.released? id = some true := by
  obtain ⟨r, hr, ht⟩ := Option.bind_eq_some_iff.mp he
  rw [exit?_of_find hr, released?_of_find hr]
  unfold Run.toldExit? at ht
  split at ht
  · next hw => rw [hw]; exact ⟨ht, rfl⟩
  · next hw => rw [hw]; exact ⟨ht, rfl⟩
  · cases ht

/-! ### What calls come to -/

/-- The result of a call that stops a run: its exit, or nothing if the exit of a later run has been
recorded. The run has left the place. -/
structure Results (x : Supervision) (id : RunId) (result : Option Exit) : Prop where
  released : x.released? id = some true
  recorded : x.exit? id ≠ none
  exact : result = x.exit? id ∨ result = none ∧ x.FinishedAfter id

/-- What is known of the run of a call. -/
def Fits (x : Supervision) : Call → Prop
  | .missed id => x.released? id = some true
  | .ended id result => Results x id result
  | .gaveUp id (some e) => x.exit? id = some e
  | c => ∀ id, c.run? = some id → x.released? id ≠ none

theorem released_of_exit (he : x.exit? id ≠ none) : x.released? id ≠ none := by
  obtain ⟨e, he⟩ := Option.ne_none_iff_exists'.mp he
  obtain ⟨r, hr, -⟩ := exists_of_exit he
  rw [released?_of_find hr]
  simp

theorem Fits.known {c : Call} (h : Fits x c) (hc : c.run? = some id) : x.released? id ≠ none := by
  cases c with
  | missed j =>
    cases hc
    rw [show x.released? id = some true from h]
    simp
  | ended j result =>
    cases hc
    rw [h.released]
    simp
  | gaveUp j exit =>
    cases exit with
    | none => exact h id hc
    | some e =>
      cases hc
      exact released_of_exit (by rw [show x.exit? id = some e from h]; simp)
  | _ => exact h id hc

theorem Alters.released (h : Alters x y id r r') (hr : r.watch.isReleased = true) :
    r'.watch.isReleased = true := by
  cases h with
  | same hu => exact hr
  | attends ha hu =>
    cases ha.stage with
    | keeps hplace hlast hrecorded hreleased => exact hreleased.trans hr
    | records e hdeed hbefore hrecorded hheld hholds => cases hheld.symm.trans hr
    | frees e hdeed hbefore hrecorded hheld hreleased => exact hreleased
  | cancelled hme hu => exact hr
  | fed chunk ho => exact (congrArg Watch.isReleased (watch_feed r _ chunk)).trans hr
  | finished ho => exact (congrArg Watch.isReleased (watch_finish r _)).trans hr

theorem Change.known (hc : Change x y) (h : x.released? id ≠ none) : y.released? id ≠ none := by
  obtain ⟨r, hr⟩ := Option.ne_none_iff_exists'.mp (find?_isSome_iff.mpr h)
  obtain ⟨r', hr', -⟩ := hc.alters hr
  exact find?_isSome_iff.mp (by rw [hr']; simp)

theorem Change.released (hc : Change x y) (h : x.released? id = some true) :
    y.released? id = some true := by
  obtain ⟨r, hr, hreleased⟩ := Option.map_eq_some_iff.mp h
  obtain ⟨r', hr', halters⟩ := hc.alters hr
  exact (released?_of_find hr').trans (congrArg some (halters.released hreleased))

theorem Results.change {result : Option Exit} (h : Results x id result) (hc : Change x y) :
    Results y id result := by
  obtain ⟨e, he⟩ := Option.ne_none_iff_exists'.mp h.recorded
  have he' := hc.exit? he
  refine ⟨hc.released h.released, by rw [he']; simp, ?_⟩
  rcases h.exact with hr | ⟨hr, hafter⟩
  · exact Or.inl (hr.trans (he.trans he'.symm))
  · exact Or.inr ⟨hr, hc.finishedAfter hafter⟩

/-- What is known of the run of a call stays true. -/
theorem Fits.change {c : Call} (h : Fits x c) (hc : Change x y) : Fits y c := by
  cases c with
  | missed id => exact hc.released h
  | ended id result => exact Results.change h hc
  | gaveUp id exit =>
    cases exit with
    | none => exact fun j hj => hc.known (h j hj)
    | some e => exact hc.exit? h
  | _ => exact fun j hj => hc.known (h j hj)

theorem Placed.known (h : Placed x) (hp : x.supervisor.place = some id) : x.released? id ≠ none := by
  rw [(h.held id).mp hp]
  simp

/-- What is known of the run of a call after a step. -/
theorem Fits.steps {c c' : Call} {s : Supervisor} (h : Fits x c) (hp : Placed x)
    (hs : Steps x c c' s) : Fits x c' := by
  cases hs with
  | asks hplace =>
    intro j hj
    cases hj
    exact hp.known hplace
  | idles hplace => exact fun j hj => nomatch hj
  | @misses id hplace =>
    show x.released? id = some true
    cases hr : x.released? id with
    | none => exact absurd hr (h id rfl)
    | some b =>
      cases b with
      | true => rfl
      | false => exact absurd ((hp.held id).mpr hr) hplace
  | @remembers id =>
    have hexit := hp.unreleased id h
    obtain ⟨e, he⟩ := Option.ne_none_iff_exists'.mp hexit
    exact ⟨h, hexit, (hp.recordedExit he).imp_left fun hr => hr.trans he.symm⟩
  | told ht =>
    obtain ⟨he, hreleased⟩ := exit_of_toldExit ht
    exact ⟨hreleased, by rw [he]; simp, Or.inl he.symm⟩
  | @givesUp id =>
    cases hr : x.supervisor.recordedExit id with
    | none => exact h
    | some e => exact hp.exit_of_recordedExit hr
  | _ => exact h

/-- What is known of all calls. -/
def AllFit (x : Supervision) : Prop := ∀ me c, x.calls me = some c → Fits x c

theorem AllFit.change (h : AllFit x) (hp : Placed x) (hc : Change x y) : AllFit y := by
  intro me c' hme
  obtain ⟨c, hx, hgoes⟩ := hc.goes_to hme
  refine Fits.change (x := x) ?_ hc
  cases hgoes with
  | same => exact h me c' hx
  | asks hr =>
    intro j hj
    cases hj
    exact find?_isSome_iff.mp hr
  | asksCurrent => exact fun j hj => nomatch hj
  | steps hs hnow => exact (h me _ hx).steps hp hs
  | @expires id deadline =>
    have hwaits : Fits x (.waiting id deadline) := h me _ hx
    exact hwaits

/-- **A call comes to the exit of its own run, or to nothing if a later run has finished.** -/
theorem fits_after (grace : Duration) (σ : Nat → Move) (n : Nat) : AllFit (after grace σ n) := by
  have h : Placed (after grace σ n) ∧ AllFit (after grace σ n) :=
    after_keeps (P := fun x => Placed x ∧ AllFit x) grace ⟨placed_new grace, fun _ _ h => nomatch h⟩
      (fun _ _ hc h => ⟨h.1.change hc, h.2.change h.1 hc⟩) σ n
  exact h.2

/-! ### Who stops a run -/

/-- A call is made that stops a run. -/
def IsMeant (x : Supervision) (id : RunId) : Prop := ∃ me c, x.calls me = some c ∧ c.run? = some id

theorem Steps.run {c c' : Call} {s : Supervisor} (hs : Steps x c c' s) (hc : c.run? = some id) :
    c'.run? = some id := by
  cases hs with
  | asks hp => cases hc
  | idles hp => cases hc
  | _ => exact hc

theorem IsMeant.change (h : IsMeant x id) (hc : Change x y) : IsMeant y id := by
  obtain ⟨me, c, hme, hid⟩ := h
  obtain ⟨c', hy, hgoes⟩ := hc.goes_from hme
  cases hgoes with
  | same => exact ⟨me, c, hy, hid⟩
  | steps hs hnow => exact ⟨me, _, hy, hs.run hid⟩
  | expires => exact ⟨me, _, hy, hid⟩

/-- A run is asked to stop only if a call was made for it, and nothing is done to end it, and its exit has
not the cause that it was stopped, unless it was asked to. -/
structure Meant (x : Supervision) (id : RunId) (r : Run) : Prop where
  asked : r.stopAsked = true → IsMeant x id
  ending : r.watch.isEnding = true → r.stopAsked = true
  stopped : ∀ e, r.watch.exit? = some e → e.cause = .stopped → r.stopAsked = true

theorem ofStatus_cause (status : WaitStatus) : (Exit.ofStatus status false).cause ≠ .stopped := by
  cases status <;> simp [Exit.ofStatus]

/-- A run whose watcher keeps to the exit that it has made out. -/
theorem Meant.of_exit (h : Meant x id r) (hy : IsMeant x id → IsMeant y id)
    (hstop : r'.stopAsked = r.stopAsked) (hending : r'.watch.isEnding = false)
    (hexit : r'.watch.exit? = r.watch.exit?) : Meant y id r' := by
  constructor
  · rw [hstop]; exact fun hr => hy (h.asked hr)
  · rw [hending]; exact fun he => nomatch he
  · rw [hexit, hstop]; exact h.stopped

/-- Only a watcher that ends its run makes out that it was stopped. -/
theorem Attends.meant {grace now : Nat} {deed : Deed} (ha : Attends grace now r r' deed)
    (h : Meant x id r) (hy : IsMeant x id → IsMeant y id) : Meant y id r' := by
  have hasked : r.stopAsked = true → IsMeant y id := fun hr => hy (h.asked hr)
  cases ha with
  | exited status hw =>
    refine ⟨hasked, (nomatch ·), fun e he hc => ?_⟩
    cases he
    exact absurd hc (ofStatus_cause status)
  | terminate hw hstop => exact ⟨hasked, fun _ => hstop, fun _ _ _ => hstop⟩
  | ended status hw =>
    have hstop : r.stopAsked = true := by
      refine h.ending ?_
      rcases hw with ⟨d, hw⟩ | hw
      · rw [hw]; rfl
      · rw [hw]; rfl
    exact ⟨hasked, fun _ => hstop, fun _ _ _ => hstop⟩
  | kill hw hd =>
    have hstop : r.stopAsked = true := h.ending (by rw [hw]; rfl)
    exact ⟨hasked, fun _ => hstop, fun _ _ _ => hstop⟩
  | @join e t d hw ho =>
    cases t
    · exact h.of_exit hy rfl rfl (by rw [hw]; rfl)
    · exact h.of_exit hy rfl rfl (by rw [hw]; rfl)
  | @abandon e t d hw hd ho =>
    cases t
    · exact h.of_exit hy rfl rfl (by rw [hw]; rfl)
    · exact h.of_exit hy rfl rfl (by rw [hw]; rfl)
  | record hw => exact h.of_exit hy rfl rfl (by rw [hw]; rfl)
  | release hw => exact h.of_exit hy rfl rfl (by rw [hw]; rfl)
  | tell hw => exact h.of_exit hy rfl rfl (by rw [hw]; rfl)
  | complete hw => exact h.of_exit hy rfl rfl (by rw [hw]; rfl)

theorem stopAsked_feed (r : Run) (t : Stream) (chunk : List UInt8) :
    (r.feed t chunk).stopAsked = r.stopAsked := by
  unfold Run.feed
  split
  · rfl
  · cases t <;> rfl

theorem stopAsked_finish (r : Run) (t : Stream) : (r.finish t).stopAsked = r.stopAsked := by
  unfold Run.finish
  split
  · rfl
  · cases t <;> rfl

/-- A run with the same end. -/
theorem Meant.of_same (h : Meant x id r) (hy : IsMeant x id → IsMeant y id)
    (hwatch : r'.watch = r.watch) (hstop : r'.stopAsked = r.stopAsked) : Meant y id r' := by
  constructor
  · rw [hstop]; exact fun hr => hy (h.asked hr)
  · rw [hwatch, hstop]; exact h.ending
  · rw [hwatch, hstop]; exact h.stopped

/-- **Who is stopped was meant**: a run is asked to stop only if a call was made for it. -/
theorem meant_after (grace : Duration) (σ : Nat → Move) (n : Nat)
    (hr : (after grace σ n).supervisor.find? id = some r) : Meant (after grace σ n) id r := by
  refine runs_keep (P := Meant) (fun x j process command hu => ?_) (fun k j r r' _ _ ha h => ?_) n hr
  · exact ⟨(nomatch ·), (nomatch ·), fun e he => nomatch he⟩
  · have hy : IsMeant (after grace σ k) j → IsMeant (after grace σ (k + 1)) j :=
      fun hm => hm.change (change_after grace σ k)
    cases ha with
    | same hu => exact h.of_same hy rfl rfl
    | attends ha hu => exact ha.meant h hy
    | cancelled hme hu => exact ⟨fun _ => hy ⟨_, _, hme, rfl⟩, fun _ => rfl, fun _ _ _ => rfl⟩
    | fed chunk ho => exact h.of_same hy (watch_feed r _ chunk) (stopAsked_feed r _ chunk)
    | finished ho => exact h.of_same hy (watch_finish r _) (stopAsked_finish r _)

end DebugHost.Supervision
