import DebugHost.Proofs.Launch.Runs
import DebugHost.Proofs.Log.Tail
import DebugHost.Proofs.Process.Completion

/-! # How a launch connects

A launch that connects counts its tries: at every stage it has made as many as its number says, and those that
are left are the rest of the allowed ones (`Stage.Tally`). So there are no more than that, it sleeps only
if it may try again, and it reports as many as it has made.

Meanwhile the events of its program are handed on, one after the other, and what a failure has to tell is kept
(`Debuggee`): the exit, and the last error lines in a ring. The exit is the last event of a run, so that when it
has been handed on, all error lines of the run have been (`seen_all`), and the ring holds the last of them,
however long afterwards it is looked at. `connecting` puts this together. What runs (`Launch.connect`) is one
order of these moves (`comes_connect`). -/

namespace DebugHost

open DebugHost.Launch

/-! ### What is kept of a program -/

/-- What is kept of a program while its events are handed on. -/
structure Debuggee where
  /-- Its exit, once it is known. -/
  exit : Option Exit := none
  /-- Its last error lines. -/
  errors : Log.Tail := .empty shownLines

namespace Debuggee

/-- An event is handed on. -/
def hear (d : Debuggee) : ProcessEvent → Debuggee
  | .stdout _ => d
  | .stderr line => { d with errors := d.errors.push line }
  | .completed exit => { d with exit := some exit }

/-- What is kept when some events have been handed on. -/
def after (events : List ProcessEvent) : Debuggee := events.foldl hear {}

/-- The error lines as a failure shows them. -/
def errorText (d : Debuggee) : String := String.intercalate "\n" d.errors.lines

theorem after_concat (events : List ProcessEvent) (event : ProcessEvent) :
    after (events ++ [event]) = (after events).hear event := List.foldl_concat ..

/-- **The ring holds the last error lines.** -/
theorem keeps_after (events : List ProcessEvent) :
    (after events).errors.Keeps shownLines (Program.linesOf .err events) := by
  induction events using List.reverseRecOn with
  | nil => exact Log.Tail.keeps_empty shownLines
  | append_singleton events event ih =>
    rw [after_concat, Program.linesOf, List.filterMap_append, ← Program.linesOf]
    cases event with
    | stdout line => simpa [hear] using ih
    | stderr line => exact ih.push line
    | completed exit => simpa [hear] using ih

theorem errors_after (events : List ProcessEvent) :
    (after events).errors.lines = (Program.linesOf .err events).rtake 20 := (keeps_after events).lines

theorem errorText_after (events : List ProcessEvent) : (after events).errorText = errorTail events := by
  rw [errorText, errors_after]
  refine congrArg (fun lines : List String => String.intercalate "\n" (lines.rtake 20)) ?_
  refine List.filterMap_congr fun event _ => ?_
  cases event <;> rfl

/-- The exit is at most once among some events, and then the last of them. -/
def ExitLast (events : List ProcessEvent) : Prop :=
  ∃ body exit, (∀ e, .completed e ∉ body) ∧ events = body ++ (Option.map ProcessEvent.completed exit).toList

theorem ExitLast.take {events : List ProcessEvent} (h : ExitLast events) (n : Nat) :
    ExitLast (events.take n) := by
  obtain ⟨body, exit, hbody, rfl⟩ := h
  by_cases hn : n ≤ body.length
  · refine ⟨body.take n, none, fun e he => hbody e (List.mem_of_mem_take he), ?_⟩
    rw [List.take_append_of_le_length hn]
    simp
  · refine ⟨body, exit, hbody, List.take_of_length_le ?_⟩
    have hlength : (Option.map ProcessEvent.completed exit).toList.length ≤ 1 := by
      cases exit <;> simp
    rw [List.length_append]
    omega

/-- The exit that is kept is the one that was reported. -/
theorem exit_after {events : List ProcessEvent} (h : ExitLast events) :
    (after events).exit = reportedExit? events := by
  obtain ⟨body, exit, hbody, rfl⟩ := h
  have hkept : (after body).exit = none := by
    induction body using List.reverseRecOn with
    | nil => rfl
    | append_singleton body event ih =>
      have hbody' := ih fun e he => hbody e (List.mem_append_left _ he)
      rw [after_concat]
      cases event with
      | stdout line => exact hbody'
      | stderr line => exact hbody'
      | completed e => exact absurd (List.mem_append_right body (List.mem_singleton_self _)) (hbody e)
  have hreported : reportedExit? body = none := by
    refine List.findSome?_eq_none_iff.mpr fun event hevent => ?_
    cases event with
    | stdout line => rfl
    | stderr line => rfl
    | completed e => exact absurd hevent (hbody e)
  cases exit with
  | none => simp [hkept, hreported]
  | some e =>
    have hlast : reportedExit? (body ++ [.completed e]) = (reportedExit? body).or (some e) :=
      List.findSome?_append
    rw [hreported] at hlast
    show (after (body ++ [.completed e])).exit = reportedExit? (body ++ [.completed e])
    rw [after_concat, hlast]
    rfl

theorem completed_mem {events : List ProcessEvent} {e : Exit} (h : reportedExit? events = some e) :
    .completed e ∈ events := by
  obtain ⟨event, hevent, hexit⟩ := List.exists_of_findSome?_eq_some h
  cases event with
  | completed e' =>
    cases hexit
    exact hevent
  | _ => cases hexit

end Debuggee

namespace Launching

open DebugHost.Supervision

variable {config : DebugConfig} {grace : Duration} {σ : Nat → Move} {me k n m : Nat} {id : RunId} {e : Exit}

/-- What is kept of the run of a launch. -/
def heard (x : Launching) (id : RunId) : Debuggee := .after (x.seen id)

/-! ### What has been handed on -/

theorem reported_of_find {s : Supervisor} {r : Run} (h : s.find? id = some r) : reported s id = r.events := by
  rw [reported, h]
  rfl

theorem exitLast_reported (config : DebugConfig) (grace : Duration) (σ : Nat → Move) (n : Nat) (id : RunId) :
    Debuggee.ExitLast (reported (after config grace σ n).supervision.supervisor id) := by
  rw [supervision_after]
  generalize (fun k => (after config grace σ k).deed (σ k)) = τ
  cases hr : (Supervision.after grace τ n).supervisor.find? id with
  | none => exact ⟨[], none, fun _ => List.not_mem_nil, by simp [reported, hr]⟩
  | some r =>
    rw [reported_of_find hr]
    obtain ⟨body, hbody, hevents⟩ := (written_after grace τ n hr).ends
    exact ⟨body, r.watch.reported?, hbody, hevents⟩

theorem exit_heard (config : DebugConfig) (grace : Duration) (σ : Nat → Move) (n : Nat) (id : RunId) :
    ((after config grace σ n).heard id).exit = reportedExit? ((after config grace σ n).seen id) :=
  Debuggee.exit_after ((exitLast_reported config grace σ n id).take _)

theorem forwarded_move (x : Launching) (m : Move) (id : RunId) : x.forwarded id ≤ (x.move m).forwarded id := by
  show x.forwarded id ≤ x.nextForwarded m id
  cases m with
  | forward j =>
    simp only [nextForwarded, Function.update_apply]
    split
    · next h => rw [h]; exact Nat.le_succ _
    · exact Nat.le_refl _
  | _ => exact Nat.le_refl _

theorem forwarded_later (hnm : n ≤ m) :
    (after config grace σ n).forwarded id ≤ (after config grace σ m).forwarded id := by
  induction hnm with
  | refl => exact Nat.le_refl _
  | step _ ih => exact ih.trans (forwarded_move _ _ id)

/-- **Once the exit has been handed on, everything has been**, and nothing comes behind it. -/
theorem seen_all (he : reportedExit? ((after config grace σ n).seen id) = some e) (hnm : n ≤ m) :
    (after config grace σ m).seen id = reported (after config grace σ m).supervision.supervisor id ∧
      (after config grace σ m).seen id = (after config grace σ n).seen id := by
  have hmem := Debuggee.completed_mem he
  have hforwarded : (after config grace σ n).forwarded id ≤ (after config grace σ m).forwarded id :=
    forwarded_later hnm
  unfold seen at hmem ⊢
  rw [supervision_after] at hmem
  rw [supervision_after, supervision_after]
  generalize (fun k => (after config grace σ k).deed (σ k)) = τ at hmem ⊢
  cases hr : (Supervision.after grace τ n).supervisor.find? id with
  | none => simp [reported, hr] at hmem
  | some r =>
    rw [reported_of_find hr] at hmem ⊢
    obtain ⟨hover, body, hevents, hbody⟩ := (written_after grace τ n hr).over (List.mem_of_mem_take hmem)
    obtain ⟨r', hr', -, hsame⟩ := silent_later hr hover hnm
    rw [reported_of_find hr', hsame]
    have hall : r.events.length ≤ (after config grace σ n).forwarded id := by
      -- otherwise only what stands before the exit would have been handed on
      by_contra hshort
      rw [hevents, List.length_append, List.length_singleton] at hshort
      rw [hevents, List.take_append_of_le_length (by omega)] at hmem
      exact hbody e (List.mem_of_mem_take hmem)
    rw [List.take_of_length_le hall, List.take_of_length_le (hall.trans hforwarded)]
    exact ⟨rfl, rfl⟩

/-! ### Tries -/

/-- Whether a launch tries to connect in a move. -/
def tries (x : Launching) (me : Nat) : Move → Bool
  | .go i (.attempt _) =>
    match x.launches me with
    | some (.trying ..) => i = me
    | _ => false
  | _ => false

/-- How often a launch has tried to connect in the first moves of a schedule. -/
def tried (config : DebugConfig) (grace : Duration) (σ : Nat → Move) (me : Nat) : Nat → Nat
  | 0 => 0
  | n + 1 => tried config grace σ me n + if (after config grace σ n).tries me (σ n) then 1 else 0

variable {x : Launching} {stage stage' : Stage} {s : Step}

theorem exists_of_tries {m : Move} (h : x.tries me m = true) : ∃ answer addr id left n,
    m = .go me (.attempt answer) ∧ x.launches me = some (.trying addr id left n) := by
  unfold tries at h
  split at h
  · next i answer =>
    split at h
    · next addr id left n hstage =>
      obtain rfl := of_decide_eq_true h
      exact ⟨answer, addr, id, left, n, rfl, hstage⟩
    · cases h
  · cases h

theorem tries_attempt {answer : Except OsError Unit} {addr : String} {left : Nat}
    (h : x.launches me = some (.trying addr id left n)) : x.tries me (.go me (.attempt answer)) = true := by
  rw [tries, h]
  exact decide_eq_true rfl

/-- What a launch has tried at a stage, if it may try `limit` times. -/
def Stage.Tally (limit count : Nat) : Option Stage → Prop
  | none | some (.checking _) | some (.starting _) => count = 0
  | some (.looking _ _ left n) | some (.trying _ _ left n) => count + 1 = n ∧ n + left = limit
  | some (.pausing _ _ left n) => count = n ∧ n + 1 + left = limit
  | _ => count ≤ limit

theorem Stage.Tally.le {limit count : Nat} {stage : Option Stage} (h : Tally limit count stage) :
    count ≤ limit := by
  unfold Tally at h
  split at h <;> omega

/-- **A try is counted.** -/
theorem Stage.Tally.tried {limit count : Nat} {answer : Except OsError Unit} {addr : String} {left : Nat}
    (h : Tally limit count (some (.trying addr id left n)))
    (ha : Advances x (.trying addr id left n) (.attempt answer) stage) :
    Tally limit (count + 1) (some stage) := by
  obtain ⟨hcount, hlimit⟩ := h
  cases ha with
  | connects => show count + 1 ≤ limit; omega
  | givesUp => show count + 1 ≤ limit; omega
  | pauses => exact ⟨hcount, by omega⟩

/-- Where a launch goes on without a try, nothing is counted. -/
theorem Stage.Tally.untried {count : Nat} (h : Tally x.attempts count (some stage))
    (ha : Advances x stage s stage') (hs : ∀ answer, s ≠ .attempt answer) :
    Tally x.attempts count (some stage') := by
  cases ha with
  | checks => exact h
  | starts hmay hstart =>
    obtain rfl : count = 0 := h
    have hone : 1 ≤ x.attempts := Nat.le_max_right ..
    exact ⟨rfl, by omega⟩
  | looks hexit => exact h
  | wakes =>
    obtain ⟨rfl, hlimit⟩ := h
    exact ⟨rfl, hlimit⟩
  | connects => exact absurd rfl (hs _)
  | givesUp => exact absurd rfl (hs _)
  | pauses => exact absurd rfl (hs _)
  | _ => exact h.le

theorem config_after (config : DebugConfig) (grace : Duration) (σ : Nat → Move) (n : Nat) :
    (after config grace σ n).config = config := by
  induction n with
  | zero => rfl
  | succ n ih => exact ih

theorem attempts_after (config : DebugConfig) (grace : Duration) (σ : Nat → Move) (n : Nat) :
    (after config grace σ n).attempts = max config.connectAttempts 1 := by
  rw [attempts, config_after]

theorem tried_succ_of_not (h : (after config grace σ n).tries me (σ n) = false) :
    tried config grace σ me (n + 1) = tried config grace σ me n := by
  rw [tried, h]
  rfl

/-- A launch that is trying tries, whatever the answer is. -/
theorem exists_advance_trying (x : Launching) (addr : String) (id : RunId) (left n : Nat)
    (answer : Except OsError Unit) : ∃ stage, x.advance (.trying addr id left n) (.attempt answer) = some stage := by
  cases answer with
  | ok _ => exact ⟨_, rfl⟩
  | error e => cases left <;> exact ⟨_, rfl⟩

/-- **A launch has tried as often as its stage says**, after every schedule. -/
theorem tally_after (config : DebugConfig) (grace : Duration) (σ : Nat → Move) (me n : Nat) :
    Stage.Tally (max config.connectAttempts 1) (tried config grace σ me n)
      ((after config grace σ n).launches me) := by
  induction n with
  | zero => rfl
  | succ n ih =>
    cases htries : (after config grace σ n).tries me (σ n) with
    | true =>
      obtain ⟨answer, addr, id, left, t, hm, hstage⟩ := exists_of_tries htries
      obtain ⟨stage, hadvance⟩ := exists_advance_trying (after config grace σ n) addr id left t answer
      rw [hstage] at ih
      rw [tried, htries, after_succ, hm, launches_of_advance hstage hadvance]
      exact ih.tried (advances_of_advance hadvance)
    | false =>
      rw [tried_succ_of_not htries]
      rcases launches_move (after config grace σ n) (σ n) me with
        hsame | ⟨addr, -, hnone, hbegun⟩ | ⟨s, stage, stage', hm, hstage, ha, hgoes⟩
      · rw [after_succ, hsame]
        exact ih
      · rw [hnone] at ih
        rw [after_succ, hbegun]
        exact ih
      · rw [hstage] at ih
        rw [after_succ, hgoes]
        rw [← attempts_after config grace σ n] at ih ⊢
        refine ih.untried ha fun answer hs => ?_
        subst hs
        cases ha <;> rw [hm, tries_attempt hstage] at htries <;> cases htries

/-! ### When connecting is over -/

/-- Whether a launch may still come to try a connection. -/
def Stage.mayTry : Stage → Bool
  | .checking _ | .starting _ | .looking .. | .trying .. | .pausing .. => true
  | _ => false

theorem Advances.over (h : Advances x stage s stage') (hover : stage.mayTry = false) :
    stage'.mayTry = false := by
  cases h <;> first | rfl | cases hover

/-- **A launch for which connecting is over tries no more.** -/
theorem tried_later (h : (after config grace σ k).launches me = some stage) (hover : stage.mayTry = false)
    (hkm : k ≤ m) : tried config grace σ me m = tried config grace σ me k ∧
      ∃ stage', (after config grace σ m).launches me = some stage' ∧ stage'.mayTry = false := by
  induction hkm with
  | refl => exact ⟨rfl, stage, h, hover⟩
  | @step m _ ih =>
    obtain ⟨hsame, stage₁, hstage₁, hover₁⟩ := ih
    refine ⟨(tried_succ_of_not ?_).trans hsame, ?_⟩
    · by_contra htries
      obtain ⟨answer, addr, id, left, t, -, hstage⟩ := exists_of_tries (Bool.eq_true_of_not_eq_false htries)
      cases hstage.symm.trans hstage₁
      cases hover₁
    · rcases launches_move (after config grace σ m) (σ m) me with
        hkept | ⟨addr, -, hnone, -⟩ | ⟨s, stage₀, stage₂, -, hstage, ha, hgoes⟩
      · exact ⟨stage₁, hkept.trans hstage₁, hover₁⟩
      · cases hnone.symm.trans hstage₁
      · cases hstage.symm.trans hstage₁
        exact ⟨stage₂, hgoes, ha.over hover₁⟩

/-- All ways in which a launch that connects comes to fail. -/
inductive Fails (x : Launching) (me : Nat) (id : RunId) (error : DebugError) (m : Move) : Stage → Prop where
  | exited {addr : String} {left n : Nat} {e : Exit} (hm : m = .go me .look)
    (hexit : reportedExit? (x.seen id) = some e)
    (herror : error = .connect addr (n - 1) (exitedDetail e (errorTail (x.seen id)))) :
    Fails x me id error m (.looking addr id left n)
  | refused {addr : String} {n : Nat} {e : OsError} (hm : m = .go me (.attempt (.error e)))
    (herror : error = .connect addr n (refusedDetail e.message (errorTail (x.seen id)))) :
    Fails x me id error m (.trying addr id 0 n)

theorem fails_of_failing {m : Move} {error : DebugError} (h : x.launches me = some stage)
    (htry : stage.mayTry = true) (hfailing : (x.move m).launches me = some (.failing id error)) :
    Fails x me id error m stage := by
  rcases launches_move x m me with hsame | ⟨addr, -, hnone, -⟩ | ⟨s, stage₀, stage₁, rfl, hstage, ha, hgoes⟩
  · cases h.symm.trans (hsame.symm.trans hfailing)
    cases htry
  · cases hnone.symm.trans h
  · cases hstage.symm.trans h
    cases hgoes.symm.trans hfailing
    cases ha with
    | sees hexit => exact .exited rfl hexit rfl
    | givesUp => exact .refused rfl rfl
    | fails => cases htry

/-- A launch that looks does not try. -/
theorem tried_look (hm : σ k = .go me .look) :
    tried config grace σ me (k + 1) = tried config grace σ me k :=
  tried_succ_of_not (by rw [hm]; rfl)

variable {addr : String} {left t : Nat} {error : DebugError}

/-- **A launch that has seen the exit of its program tries no more.** -/
theorem tried_of_exit (h : (after config grace σ k).launches me = some (.looking addr id left t))
    (hm : σ k = .go me .look) (he : reportedExit? ((after config grace σ k).seen id) = some e) (hkm : k ≤ m) :
    tried config grace σ me m = tried config grace σ me k := by
  have hlook : (after config grace σ k).advance (.looking addr id left t) .look =
      some (.failing id (.connect addr (t - 1)
        (exitedDetail e (errorTail ((after config grace σ k).seen id))))) := by
    rw [advance, he]
  have hfailing := launches_of_advance h hlook
  rw [← hm, ← after_succ] at hfailing
  rcases Nat.eq_or_lt_of_le hkm with rfl | hlt
  · rfl
  · exact (tried_later hfailing rfl hlt).1.trans (tried_look hm)

/-- **A launch that fails to connect reports as many tries as it has made.** -/
theorem exists_connect (h : (after config grace σ k).launches me = some stage) (htry : stage.mayTry = true)
    (hfailing : (after config grace σ (k + 1)).launches me = some (.failing id error)) :
    ∃ addr detail, error = .connect addr (tried config grace σ me (k + 1)) detail := by
  have htally := tally_after config grace σ me k
  rw [h] at htally
  cases fails_of_failing h htry hfailing with
  | @exited addr left n e hm hexit herror =>
    obtain ⟨rfl, -⟩ := htally
    rw [tried_look hm]
    exact ⟨addr, _, herror⟩
  | @refused addr n e hm herror =>
    obtain ⟨rfl, -⟩ := htally
    have htries : (after config grace σ k).tries me (σ k) = true := by
      rw [hm]
      exact tries_attempt h
    rw [tried, htries]
    exact ⟨addr, _, herror⟩

/-- What a launch that fails after a look shows of its program is all that the program has reported, and stays
so. -/
theorem exited_of_failing (h : (after config grace σ k).launches me = some (.looking addr id left t))
    (hfailing : (after config grace σ (k + 1)).launches me = some (.failing id error)) :
    ∃ e, reportedExit? ((after config grace σ k).seen id) = some e ∧ ∀ m ≥ k,
      error = .connect addr (tried config grace σ me k)
        (exitedDetail e (errorTail ((after config grace σ m).seen id))) ∧
      (after config grace σ m).seen id = reported (after config grace σ m).supervision.supervisor id := by
  have htally := tally_after config grace σ me k
  rw [h] at htally
  cases fails_of_failing h rfl hfailing with
  | @exited _ _ _ e hm hexit herror =>
    obtain ⟨rfl, -⟩ := htally
    refine ⟨e, hexit, fun m hkm => ?_⟩
    obtain ⟨hall, hsame⟩ := seen_all hexit hkm
    exact ⟨by rw [herror, hsame]; rfl, hall⟩

/-! ### All together -/

/-- How launch `me` connects. Its tries are counted by `tried`. -/
structure Connects (config : DebugConfig) (grace : Duration) (σ : Nat → Move) (me : Nat) : Prop where
  /-- There are no more tries than are configured; none at all counts as one. -/
  bounded : ∀ n, tried config grace σ me n ≤ max config.connectAttempts 1
  /-- It sleeps only where it may try again. -/
  pauses : ∀ n addr id left t, (after config grace σ n).launches me = some (.pausing addr id left t) →
    tried config grace σ me n < max config.connectAttempts 1
  /-- When it has looked and seen the exit of its program, it tries no more. -/
  ended : ∀ k addr id left t, (after config grace σ k).launches me = some (.looking addr id left t) →
    σ k = .go me .look → ((after config grace σ k).heard id).exit ≠ none →
    ∀ m ≥ k, tried config grace σ me m = tried config grace σ me k
  /-- When it fails to connect, it reports as many tries as it has made, and makes no more. -/
  failed : ∀ k stage id error, (after config grace σ k).launches me = some stage → stage.mayTry = true →
    (after config grace σ (k + 1)).launches me = some (.failing id error) →
    (∃ addr detail, error = .connect addr (tried config grace σ me (k + 1)) detail) ∧
      ∀ m > k, tried config grace σ me m = tried config grace σ me (k + 1)
  /-- When it fails after a look, it has seen the exit of its program, and the error lines that it shows are
  the last twenty of all that the run ever reports, whenever they are read afterwards. -/
  exited : ∀ k addr id left t error, (after config grace σ k).launches me = some (.looking addr id left t) →
    (after config grace σ (k + 1)).launches me = some (.failing id error) →
    ∃ exit, ((after config grace σ k).heard id).exit = some exit ∧ ∀ m ≥ k,
      error = .connect addr (tried config grace σ me k)
        (exitedDetail exit ((after config grace σ m).heard id).errorText) ∧
      ((after config grace σ m).heard id).errors.lines =
        (Program.linesOf .err (reported (after config grace σ m).supervision.supervisor id)).rtake 20

/-- **How a launch connects**, whatever the answers to its tries are, and whatever comes between them. -/
theorem connecting (config : DebugConfig) (grace : Duration) (σ : Nat → Move) (me : Nat) :
    Connects config grace σ me where
  bounded n := (tally_after config grace σ me n).le
  pauses n addr id left t h := by
    have htally := tally_after config grace σ me n
    rw [h] at htally
    obtain ⟨hcount, hlimit⟩ := htally
    omega
  ended k addr id left t h hm hexit m hkm := by
    obtain ⟨e, he⟩ := Option.ne_none_iff_exists'.mp hexit
    rw [exit_heard] at he
    exact tried_of_exit h hm he hkm
  failed k stage id error h htry hfailing :=
    ⟨exists_connect h htry hfailing, fun m hkm => (tried_later hfailing rfl hkm).1⟩
  exited k addr id left t error h hfailing := by
    obtain ⟨e, he, hshown⟩ := exited_of_failing h hfailing
    refine ⟨e, by rw [exit_heard, he], fun m hkm => ?_⟩
    obtain ⟨herror, hall⟩ := hshown m hkm
    rw [heard, Debuggee.errorText_after, Debuggee.errors_after]
    exact ⟨herror, congrArg (fun events => (Program.linesOf .err events).rtake 20) hall⟩

/-- A launch whose program writes `c` to its error output and exits, while the launch sleeps after its first
try. -/
def dying (k : Nat) : Move :=
  let moves : List Move :=
    [.begin 0 "127.0.0.1:5678", .go 0 (.check (.ok ())), .go 0 (.start listing (.ok 4)), .go 0 .look,
      .go 0 (.attempt (.error .networkUnreachable)), .around (.read ⟨1⟩ .err [99, 10])] ++
    (teardown ⟨1⟩).map .around ++ [.forward ⟨1⟩, .forward ⟨1⟩, .go 0 .wake, .go 0 .look]
  moves.getD k (.around (.clock 0))

theorem connecting_dying :
    (after {} ⟨100⟩ dying 19).launches 0 =
        some (.failing ⟨1⟩ (.connect "127.0.0.1:5678" 1 (exitedDetail ⟨some 0, .exited⟩ "c"))) ∧
      ((after {} ⟨100⟩ dying 18).heard ⟨1⟩).exit ≠ none ∧ tried {} ⟨100⟩ dying 0 19 = 1 ∧
      ∀ m > 18, tried {} ⟨100⟩ dying 0 m = 1 := by
  have hlooking : (after {} ⟨100⟩ dying 18).launches 0 = some (.looking "127.0.0.1:5678" ⟨1⟩ 8 2) := rfl
  have hseen : (after {} ⟨100⟩ dying 18).seen ⟨1⟩ = [.stderr "c", .completed ⟨some 0, .exited⟩] := by
    decide +kernel
  have htail : errorTail [.stderr "c", .completed ⟨some 0, .exited⟩] = "c" := by decide +kernel
  have hfailing : (after {} ⟨100⟩ dying 19).launches 0 =
      some (.failing ⟨1⟩ (.connect "127.0.0.1:5678" 1 (exitedDetail ⟨some 0, .exited⟩ "c"))) := by
    have hmove : dying 18 = .go 0 .look := rfl
    rw [after_succ, hmove]
    refine launches_of_advance hlooking ?_
    rw [advance, hseen, htail]
    rfl
  have hconnects := connecting {} ⟨100⟩ dying 0
  obtain ⟨exit, hexit, -⟩ := hconnects.exited 18 _ _ _ _ _ hlooking hfailing
  obtain ⟨⟨addr, detail, herror⟩, hlater⟩ := hconnects.failed 18 _ _ _ hlooking rfl hfailing
  obtain ⟨-, htried, -⟩ := DebugError.connect.inj herror
  rw [← htried] at hlater
  exact ⟨hfailing, Option.ne_none_iff_exists'.mpr ⟨exit, hexit⟩, htried.symm, hlater⟩

end Launching
end DebugHost
