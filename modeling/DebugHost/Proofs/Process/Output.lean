import DebugHost.Program
import DebugHost.Proofs.Process.Lines
import DebugHost.Proofs.Process.Place

/-! # What a run reports

A reader reports lines as it reads them, and a watcher reports the exit when both readers have ended, so
that the exit is the last thing that a run reports (`Written.ends`). The lines of a stream among the events
are the complete lines of what was read of it, and all of its lines when its reader has ended by itself
(`Written.shows`); a reader that was made to end reports nothing of what it holds. -/

namespace DebugHost

/-- Whether the reader of a stream may still be at work, seen from the watcher, which waits for the one of
the output first. -/
def Watch.mayRead : Stream → Watch → Bool
  | _, .waiting | _, .terminating _ | _, .killing | _, .joining _ .out _ => true
  | .err, .joining _ .err _ => true
  | _, _ => false

/-- The exit that a watcher has reported. -/
def Watch.reported? : Watch → Option Exit
  | .over e => some e
  | _ => none

namespace Supervision

open LineBuffer

variable {x y : Supervision} {id : RunId} {r r' : Run} {e : Exit} {t : Stream}

/-! ### Readers and events -/

theorem reader_congr (hout : r'.out = r.out) (herr : r'.err = r.err) (t : Stream) :
    r'.reader t = r.reader t := by
  cases t
  · exact hout
  · exact herr

theorem reader_setReader (r : Run) (s t : Stream) (reader : StreamReader) :
    (r.setReader s reader).reader t = if t = s then reader else r.reader t := by
  cases s <;> cases t <;> rfl

theorem reader_report (r : Run) (s t : Stream) (lines : List String) :
    (r.report s lines).reader t = r.reader t := by
  cases t <;> rfl

theorem events_setReader (r : Run) (s : Stream) (reader : StreamReader) :
    (r.setReader s reader).events = r.events := by
  cases s <;> rfl

theorem feed_eq (ho : (r.reader t).isOver = false) (chunk : List UInt8) :
    r.feed t chunk = (r.setReader t { buffer := ((r.reader t).buffer.push chunk).2 }).report t
      ((r.reader t).buffer.push chunk).1 := by
  unfold Run.feed
  rw [ho]
  rfl

theorem finish_eq (ho : (r.reader t).isOver = false) :
    r.finish t = (r.setReader t { buffer := (r.reader t).buffer.finish.2, isOver := true }).report t
      (r.reader t).buffer.finish.1.toList := by
  unfold Run.finish
  rw [ho]
  rfl

/-- The lines of a stream among events and lines of a stream behind them. -/
theorem linesOf_report (events : List ProcessEvent) (s t : Stream) (lines : List String) :
    Program.linesOf t (events ++ lines.map s.event) =
      Program.linesOf t events ++ if t = s then lines else [] := by
  unfold Program.linesOf
  rw [List.filterMap_append]
  congr 1
  rw [List.filterMap_map]
  cases s <;> cases t <;> simp [Function.comp_def, Stream.event]

theorem linesOf_completed (events : List ProcessEvent) (e : Exit) (t : Stream) :
    Program.linesOf t (events ++ [.completed e]) = Program.linesOf t events := by
  unfold Program.linesOf
  rw [List.filterMap_append]
  cases t <;> simp

/-! ### Streams -/

/-- What was reported of a stream, given what was read of it and whether its reader has ended by
itself. -/
inductive Shows (reader : StreamReader) (octets : List UInt8) (isComplete : Bool) (shown : List String) :
    Prop where
  | reading (ho : reader.isOver = false) (hc : isComplete = false) (hholds : Holds reader.buffer octets)
    (hshown : shown = completeLines octets)
  | finished (ho : reader.isOver = true) (hc : isComplete = true) (hshown : shown = allLines octets)
  | abandoned (ho : reader.isOver = true) (hc : isComplete = false)
    (hshown : shown = completeLines octets)

variable {reader : StreamReader} {octets : List UInt8} {isComplete : Bool} {shown : List String}

theorem Shows.begins (h : Shows reader octets isComplete shown) : shown <+: allLines octets := by
  cases h with
  | reading ho hc hholds hshown => exact hshown ▸ completeLines_prefix octets
  | finished ho hc hshown => exact hshown ▸ List.prefix_rfl
  | abandoned ho hc hshown => exact hshown ▸ completeLines_prefix octets

theorem Shows.all (h : Shows reader octets isComplete shown) (hc : isComplete = true) :
    shown = allLines octets := by
  cases h with
  | reading ho hc' hholds hshown => cases hc'.symm.trans hc
  | finished ho hc' hshown => exact hshown
  | abandoned ho hc' hshown => cases hc'.symm.trans hc

/-! ### Runs -/

/-- What a run has reported. -/
structure Written (x : Supervision) (id : RunId) (r : Run) : Prop where
  /-- The exit is reported when the watcher is at its end, and is the last event. -/
  ends : ∃ body, (∀ e, .completed e ∉ body) ∧
    r.events = body ++ (r.watch.reported?.map ProcessEvent.completed).toList
  /-- A reader that the watcher no longer waits for has ended. -/
  joined : ∀ t, r.watch.mayRead t = false → (r.reader t).isOver = true
  shows : ∀ t, Shows (r.reader t) (x.octets id t) (x.isComplete id t) (Program.linesOf t r.events)

theorem written_new {j : RunId} (hu : Untouched x j) (process : Nat) (command : String) :
    Written x j { id := j, process, command } where
  ends := ⟨[], fun _ => List.not_mem_nil, rfl⟩
  joined t h := by cases t <;> cases h
  shows t := by
    rw [hu.octets, hu.complete]
    cases t <;> exact .reading rfl rfl holds_new rfl

/-- The watcher of a run has done something that reports nothing. -/
theorem Written.of_watch (h : Written x id r) (hu : Unread x y id)
    (hreported : r'.watch.reported? = r.watch.reported?) (hevents : r'.events = r.events)
    (hreader : ∀ t, r'.reader t = r.reader t)
    (hjoined : ∀ t, r'.watch.mayRead t = false → (r.reader t).isOver = true) : Written y id r' where
  ends := by
    rw [hreported, hevents]
    exact h.ends
  joined t ht := by
    rw [hreader]
    exact hjoined t ht
  shows t := by
    rw [hreader, hevents, hu.octets, hu.complete]
    exact h.shows t

theorem mayRead_behind {g : Nat} {s : Stream} (h : (behind e g t).mayRead s = false) :
    s = t ∨ ∀ d, Watch.mayRead s (.joining e t d) = false := by
  cases t <;> cases s <;> simp_all [behind, Watch.mayRead]

theorem reported_behind (g : Nat) : (behind e g t).reported? = none := by
  cases t <;> rfl

/-- A reader is made to end. -/
theorem Written.abandon (h : Written x id r) (hu : Unread x y id) {d g : Nat}
    (hw : r.watch = .joining e t d) (ho : (r.reader t).isOver = false) :
    Written y id { r.abandon t with watch := behind e g t } := by
  have hreader : ∀ s, ({ r.abandon t with watch := behind e g t } : Run).reader s =
      if s = t then { r.reader t with isOver := true } else r.reader s :=
    fun s => (reader_congr (r := r.abandon t) rfl rfl s).trans (reader_setReader r t s _)
  have hevents : ({ r.abandon t with watch := behind e g t } : Run).events = r.events :=
    events_setReader r t _
  constructor
  · rw [hevents]
    show ∃ body, _ ∧ r.events = body ++ ((behind e g t).reported?.map _).toList
    have hends := h.ends
    rw [hw] at hends
    rw [reported_behind]
    exact hends
  · intro s hs
    rw [hreader]
    split
    · rfl
    · next hne =>
      rcases mayRead_behind hs with heq | hbefore
      · exact absurd heq hne
      · exact h.joined s (by rw [hw]; exact hbefore d)
  · intro s
    rw [hreader, hevents, hu.octets, hu.complete]
    split
    · next heq =>
      subst heq
      cases h.shows s with
      | reading ho' hc hholds hshown => exact .abandoned rfl hc hshown
      | finished ho' hc hshown => cases ho.symm.trans ho'
      | abandoned ho' hc hshown => cases ho.symm.trans ho'
    · exact h.shows s

/-- The exit is reported when both readers have ended. -/
theorem Written.complete (h : Written x id r) (hu : Unread x y id) (hw : r.watch = .told e) :
    Written y id { r with watch := .over e, events := r.events ++ [.completed e] } := by
  have hreader : ∀ t, ({ r with watch := .over e, events := r.events ++ [.completed e] } : Run).reader t =
      r.reader t := reader_congr rfl rfl
  constructor
  · obtain ⟨body, hbody, hevents⟩ := h.ends
    rw [hw] at hevents
    refine ⟨body, hbody, ?_⟩
    show r.events ++ [.completed e] = body ++ [.completed e]
    rw [hevents]
    exact congrArg (· ++ [ProcessEvent.completed e]) (List.append_nil body)
  · intro t ht
    rw [hreader]
    exact h.joined t (by rw [hw]; cases t <;> rfl)
  · intro t
    rw [hu.octets, hu.complete, hreader]
    show Shows _ _ _ (Program.linesOf t (r.events ++ [.completed e]))
    rw [linesOf_completed]
    exact h.shows t

theorem Written.attends (h : Written x id r) (hu : Unread x y id) {g now : Nat} {deed : Deed}
    (ha : Attends g now r r' deed) : Written y id r' := by
  cases ha with
  | exited status hw =>
    refine h.of_watch hu (by rw [hw]; rfl) rfl (reader_congr rfl rfl) fun t ht => ?_
    cases t <;> cases ht
  | terminate hw hs =>
    refine h.of_watch hu (by rw [hw]; rfl) rfl (reader_congr rfl rfl) fun t ht => ?_
    cases t <;> cases ht
  | ended status hw =>
    refine h.of_watch hu ?_ rfl (reader_congr rfl rfl) fun t ht => ?_
    · rcases hw with ⟨d, hw⟩ | hw <;> rw [hw] <;> rfl
    · cases t <;> cases ht
  | kill hw hd =>
    refine h.of_watch hu (by rw [hw]; rfl) rfl (reader_congr rfl rfl) fun t ht => ?_
    cases t <;> cases ht
  | @join e t d hw ho =>
    refine h.of_watch hu (by rw [hw]; exact reported_behind _) rfl (reader_congr rfl rfl)
      fun s hs => ?_
    rcases mayRead_behind hs with rfl | hbefore
    · exact ho
    · exact h.joined s (by rw [hw]; exact hbefore d)
  | abandon hw hd ho => exact h.abandon hu hw ho
  | record hw =>
    refine h.of_watch hu (by rw [hw]; rfl) rfl (reader_congr rfl rfl) fun t ht => ?_
    exact h.joined t (by rw [hw]; cases t <;> rfl)
  | release hw =>
    refine h.of_watch hu (by rw [hw]; rfl) rfl (reader_congr rfl rfl) fun t ht => ?_
    exact h.joined t (by rw [hw]; cases t <;> rfl)
  | tell hw =>
    refine h.of_watch hu (by rw [hw]; rfl) rfl (reader_congr rfl rfl) fun t ht => ?_
    exact h.joined t (by rw [hw]; cases t <;> rfl)
  | complete hw => exact h.complete hu hw

/-- A watcher that has reported the exit waits for no reader. -/
theorem reported_of_mayRead {w : Watch} (h : w.mayRead t = true) : w.reported? = none := by
  cases w with
  | «over» e => cases t <;> cases h
  | _ => rfl

theorem Written.mayRead (h : Written x id r) (ho : (r.reader t).isOver = false) :
    r.watch.mayRead t = true := by
  by_contra hne
  cases ho.symm.trans (h.joined t (Bool.eq_false_iff.mpr hne))

/-- A reader that is at work reports lines. -/
theorem Written.report (h : Written x id r) (ho : (r.reader t).isOver = false)
    (reader : StreamReader) (lines : List String)
    (hothers : ∀ s, s ≠ t → y.octets id s = x.octets id s ∧ y.isComplete id s = x.isComplete id s)
    (hshows : Shows reader (y.octets id t) (y.isComplete id t) (Program.linesOf t r.events ++ lines)) :
    Written y id ((r.setReader t reader).report t lines) := by
  have hwatch : ((r.setReader t reader).report t lines).watch = r.watch := by cases t <;> rfl
  have hreader : ∀ s, ((r.setReader t reader).report t lines).reader s =
      if s = t then reader else r.reader s :=
    fun s => (reader_report ..).trans (reader_setReader ..)
  have hevents : ((r.setReader t reader).report t lines).events = r.events ++ lines.map t.event :=
    congrArg (· ++ lines.map t.event) (events_setReader r t reader)
  constructor
  · obtain ⟨body, hbody, hends⟩ := h.ends
    rw [reported_of_mayRead (h.mayRead ho)] at hends
    refine ⟨body ++ lines.map t.event, fun e he => ?_, ?_⟩
    · rcases List.mem_append.mp he with he | he
      · exact hbody e he
      · obtain ⟨l, -, hl⟩ := List.mem_map.mp he
        cases t <;> cases hl
    · rw [hevents, hwatch, reported_of_mayRead (h.mayRead ho), hends]
      simp
  · intro s hs
    rw [hwatch] at hs
    have hne : s ≠ t := by
      rintro rfl
      cases hs.symm.trans (h.mayRead ho)
    rw [hreader, if_neg hne]
    exact h.joined s hs
  · intro s
    rw [hreader, hevents, linesOf_report]
    split
    · next heq =>
      subst heq
      exact hshows
    · next hne =>
      obtain ⟨hoctets, hcomplete⟩ := hothers s hne
      rw [hoctets, hcomplete, List.append_nil]
      exact h.shows s

theorem Written.fed (h : Written x id r) (ho : (r.reader t).isOver = false) (chunk : List UInt8)
    (hoctets : y.octets id = Function.update (x.octets id) t (x.octets id t ++ chunk))
    (hcomplete : y.isComplete id = x.isComplete id) : Written y id (r.feed t chunk) := by
  rw [feed_eq ho]
  refine h.report ho _ _ (fun s hs => ?_) ?_
  · rw [hoctets, hcomplete, Function.update_of_ne hs]
    exact ⟨rfl, rfl⟩
  · rw [hoctets, hcomplete, Function.update_self]
    cases h.shows t with
    | reading ho' hc hholds hshown =>
      obtain ⟨hlines, hholds'⟩ := hholds.push chunk
      exact .reading rfl hc hholds' (by rw [hshown, hlines])
    | finished ho' hc hshown => cases ho.symm.trans ho'
    | abandoned ho' hc hshown => cases ho.symm.trans ho'

theorem Written.finished (h : Written x id r) (ho : (r.reader t).isOver = false)
    (hoctets : y.octets id = x.octets id)
    (hcomplete : y.isComplete id = Function.update (x.isComplete id) t true) :
    Written y id (r.finish t) := by
  rw [finish_eq ho]
  refine h.report ho _ _ (fun s hs => ?_) ?_
  · rw [hoctets, hcomplete, Function.update_of_ne hs]
    exact ⟨rfl, rfl⟩
  · rw [hoctets, hcomplete, Function.update_self]
    cases h.shows t with
    | reading ho' hc hholds hshown => exact .finished rfl rfl (by rw [hshown, hholds.finish])
    | finished ho' hc hshown => cases ho.symm.trans ho'
    | abandoned ho' hc hshown => cases ho.symm.trans ho'

theorem Written.alters (h : Written x id r) (ha : Alters x y id r r') : Written y id r' := by
  cases ha with
  | same hu => exact h.of_watch hu rfl rfl (reader_congr rfl rfl) h.joined
  | attends ha hu => exact h.attends hu ha
  | cancelled hme hu => exact h.of_watch hu rfl rfl (reader_congr rfl rfl) h.joined
  | fed chunk ho hoctets hcomplete => exact h.fed ho chunk hoctets hcomplete
  | finished ho hoctets hcomplete => exact h.finished ho hoctets hcomplete

/-- **What a run has reported**, after every schedule. -/
theorem written_after (grace : Duration) (σ : Nat → Move) (n : Nat)
    (hr : (after grace σ n).supervisor.find? id = some r) : Written (after grace σ n) id r :=
  runs_keep (P := Written) (fun _ _ process command hu => written_new hu process command)
    (fun _ _ _ _ _ _ ha h => h.alters ha) n hr

end Supervision
end DebugHost
