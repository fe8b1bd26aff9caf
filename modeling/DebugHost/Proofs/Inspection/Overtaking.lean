import DebugHost.Proofs.Inspection.Sharing
import DebugHost.Proofs.Session.Reigns

/-! # Answers that overtake events

The reader hands an answer to the task that waits for it, and an event to a queue, from which the session
takes it in its turn. A view is told of only if the generation of its question is still at hand, so that
everything that the session has taken since this generation began has left it where it was
(`Crowd.behind`). But what still waits in the queue is not looked at (`Crowd.unseen`): an answer may
be told of as one of a pause that the adapter had left before it gave the answer (`Crowd.timely`). -/

namespace DebugHost

open DebugHost.Session DebugHost.Script DebugHost.Inspection

variable {ρ : Type}

namespace Crowd

open Debugger

/-! ### What stands behind a view -/

section Behind

variable {d : Debugger ρ} {σ : Nat → Happening (Inspection.Fit (ρ := ρ))} {n : Nat}

/-- A look that is over has ended with a deed. -/
theorem visited {me : Nat} {t : Visit} (ht : t ∈ (seat d σ n me).past) :
    ∃ k < n, ∃ x, deed? (after d σ k) (σ k) = some (me, x) ∧
      (seat d σ k me).stand.ended? x = some t := by
  induction n with
  | zero => cases ht
  | succ n ih =>
    have hlater (h : t ∈ (seat d σ n me).past) :
        ∃ k < n + 1, ∃ x, deed? (after d σ k) (σ k) = some (me, x) ∧
          (seat d σ k me).stand.ended? x = some t := by
      obtain ⟨k, hk, hx⟩ := ih h
      exact ⟨k, Nat.lt_succ_of_lt hk, hx⟩
    cases hx : deed? (after d σ n) (σ n) with
    | none =>
      have hplace : seat d σ (n + 1) = seat d σ n := place_silent hx
      exact hlater (hplace ▸ ht)
    | some w =>
      obtain ⟨who, x⟩ := w
      have hplace : seat d σ (n + 1) =
          Function.update (seat d σ n) who (asking.next (seat d σ n who) x) := place_deed hx
      rw [hplace] at ht
      by_cases hw : me = who
      · subst hw
        rw [Function.update_self] at ht
        rcases List.mem_append.mp ht with ht | ht
        · exact hlater ht
        · exact ⟨n, Nat.lt_succ_self n, x, hx, Option.mem_toList.mp ht⟩
      · rw [Function.update_of_ne hw] at ht
        exact hlater ht

/-- The names of the events with which the adapter tells that it has left a pause. -/
def leaving : List String := ["stopped", "continued", "exited", "terminated"]

/-- What stands behind a view of the generation `g` that is told of in `n`: the generation began in `s`,
the question was put in `i`, and its answer `r` was read in `m`. -/
structure Behind (d : Debugger ρ) (σ : Nat → Happening (Inspection.Fit (ρ := ρ))) (n : Nat)
    (g : Generation) (v : View) (s i m : Nat) (r : Response) : Prop where
  order : s ≤ i ∧ i < m ∧ m < n
  reign : ∀ j ≤ n, (session d σ j).status.generation = g ↔ s ≤ j
  asked : ∃ who k y a, deed? (after d σ i) (σ i) = some (who, ⟨.send k.command k.arguments, .ok y⟩) ∧
    y.seq = r.requestSeq ∧ Key.reading k r = .ok a ∧ v = .of g a
  answered : Heard (after d σ m) (σ m) r
  /-- What the session has taken since the generation began has left it where it was. -/
  quiet : ∀ j, s ≤ j → j < n → ∀ e, input? (after d σ j) (σ j) = some (.event e) →
    ¬ e.Leaves (session d σ j).status.state
  /-- The events before the answer are among these, or still wait. -/
  between : ∀ e ∈ between d σ s m, e ∈ (after d σ n).waiting ∨
    ∃ j, s ≤ j ∧ j < n ∧ input? (after d σ j) (σ j) = some (.event e)
  /-- So none of them tells that the adapter has left a pause, except for those that still wait, and for
  one that says that the program goes on while it is launched or set up. -/
  missed : ∀ e ∈ Crowd.between d σ s m, e.event ∈ leaving → e ∈ (after d σ n).waiting ∨
    e.event = "continued" ∧ ∃ j, s ≤ j ∧ j < n ∧ input? (after d σ j) (σ j) = some (.event e) ∧
      (session d σ j).status.state ∈ [.launching, .configuring]

/-- A view is told of by who has it checked. -/
theorem checked_of_ended {st : Inspection.Stand} {x : Deed} {l : Look} {v w : View}
    (hmay : st.may x.action)
    (h : st.ended? x = some (.checked l v (.ok w))) :
    st = .checks l v ∧ x = ⟨.confirm l.ticket.generation v, .ok w⟩ := by
  obtain ⟨a, r⟩ := x
  cases st with
  | checks l' v' =>
    cases a with
    | confirm g u =>
      obtain ⟨rfl, rfl⟩ : g = l'.ticket.generation ∧ u = v' := hmay
      cases h
      exact ⟨rfl, rfl⟩
    | _ => exact hmay.elim
  | apart =>
    cases a with
    | join q => cases r <;> cases h
    | _ => cases h
  | told f =>
    cases a with
    | deliver k answer => cases r <;> cases h
    | _ => cases h
  | _ => cases h

variable {timeout : Duration} {id : SessionId}

/-- No task has a slot of a later generation. -/
theorem generation_of_look {me : Nat} {l : Look}
    (hl : (seat (opened timeout id) σ n me).stand.look? = some l) :
    l.ticket.generation.number ≤ (session (opened timeout id) σ n).status.generation.number := by
  have hs := sound timeout id σ n
  have hle := hs.past _ (List.mem_of_getElem? (hs.seated me l hl).1)
  rw [(lockstep (lockstep_opened timeout id) σ n).generation]
  exact hle

/-- Of the events that tell that the adapter has left a pause the session passes over only one. -/
theorem passed_over {j : Nat} {e : Event} (he : e.event ∈ leaving)
    (hi : input? (after d σ j) (σ j) = some (.event e))
    (hl : ¬ e.Leaves (session d σ j).status.state) :
    e.event = "continued" ∧ (session d σ j).status.state ∈ [.launching, .configuring] := by
  have hkind : e.kind = .ofName e.event := rfl
  simp only [Event.Leaves, not_or, not_and] at hl
  obtain ⟨hstopped, hexited, hterminated, hcontinued⟩ := hl
  have hgoing : (session d σ j).status.state ≠ .terminated := (handles_happen hi).1
  simp only [leaving, List.mem_cons, List.not_mem_nil, or_false] at he
  rcases he with he | he | he | he
  · exact absurd (by rw [hkind, he]; rfl) hstopped
  · obtain ⟨hpaused, hrunning⟩ := hcontinued (by rw [hkind, he]; rfl)
    refine ⟨he, ?_⟩
    cases hst : (session d σ j).status.state with
    | launching => decide
    | configuring => decide
    | running => exact absurd hst hrunning
    | paused => exact absurd hst hpaused
    | terminated => exact absurd hst hgoing
  · exact absurd (by rw [hkind, he]; rfl) hexited
  · exact absurd (by rw [hkind, he]; rfl) hterminated

/-- **What stands behind a view**: it was asked for and answered in its generation, and nothing that the
session has taken in the meantime has made it leave the state that it was in. -/
theorem behind {k me : Nat} {x : Deed} {l : Look} {v w : View}
    (hx : deed? (after (opened timeout id) σ k) (σ k) = some (me, x))
    (hended : (seat (opened timeout id) σ k me).stand.ended? x = some (.checked l v (.ok w))) :
    ∃ g s i m r, Behind (opened timeout id) σ k g w s i m r := by
  have hs := sound timeout id σ k
  have h0 := lockstep_opened (ρ := ρ) timeout id
  have hlockstep := lockstep h0 σ
  obtain ⟨hst, rfl⟩ := checked_of_ended ((kept_asking timeout id σ k).may hx) hended
  -- the view was checked: it is of the generation at hand
  have hgot := (attempt_of_deed hx).1
  obtain ⟨hclosed, hg, rfl⟩ : (after (opened timeout id) σ k).room.state.tree.closed = false ∧
      l.ticket.generation = (after (opened timeout id) σ k).room.state.tree.generation ∧ w = v := by
    refine Tree.confirm_ok ?_
    simp only [attempt] at hgot
    generalize (after (opened timeout id) σ k).room.state.tree.confirm l.ticket.generation v = o at hgot ⊢
    cases hgot
    rfl
  have hgeneration : (session (opened timeout id) σ k).status.generation = l.ticket.generation :=
    (hlockstep k).generation.trans hg.symm
  have hgoing : ¬ (after (opened timeout id) σ k).Over := fun ho =>
    Bool.noConfusion (((hlockstep k).closed.mpr ho).symm.trans hclosed)
  -- it was fetched, and the request was sent in this generation
  obtain ⟨who, f, a, hf, hsubject, houtcome, hview⟩ := hs.known me l w hst
  have hfetched := fetched (List.mem_filter.mpr ⟨hf, decide_eq_true hsubject⟩)
  obtain ⟨r, htold, hread⟩ : ∃ r, f.told = .ok r ∧ f.look.ticket.key.reading r = .ok a := by
    simp only [Fetch.outcome] at houtcome
    cases ht : f.told with
    | error e => rw [ht] at houtcome; cases houtcome
    | ok r => rw [ht] at houtcome; exact ⟨r, rfl, houtcome⟩
  obtain ⟨hrequest, -, m, hm, hheard⟩ := hfetched.heard r htold
  obtain ⟨i, hi, hseat, y, hseq, hsent⟩ := hfetched.sent _ hrequest
  have him := sent_before_answer (numbered_opened timeout id) hsent hheard hseq
  obtain ⟨s, hsk, hreign⟩ := reign h0 σ k
  rw [hgeneration] at hreign
  have hsi : s ≤ i := by
    refine (hreign i (Nat.le_of_lt hi)).mp ?_
    have hle := generation_of_look (n := i) (l := f.look) (by rw [hseat]; rfl)
    rw [show f.look.ticket.generation = l.ticket.generation from congrArg Prod.fst hsubject] at hle
    have hmono := generation_mono (σ := σ) h0 (Nat.le_of_lt hi)
    rw [hgeneration] at hmono
    exact congrArg Generation.mk (Nat.le_antisymm hmono hle)
  have hquiet : ∀ j, s ≤ j → j < k → ∀ e,
      input? (after (opened timeout id) σ j) (σ j) = some (.event e) →
        ¬ e.Leaves (session (opened timeout id) σ j).status.state := by
    intro j hsj hj e he hleaves
    have hsame : (session (opened timeout id) σ (j + 1)).status.generation =
        (session (opened timeout id) σ j).status.generation :=
      ((hreign (j + 1) hj).mpr (Nat.le_succ_of_le hsj)).trans
        ((hreign j (Nat.le_of_lt hj)).mpr hsj).symm
    have hnone := stays_of_generation h0 hsame
    rw [entered?, he, Option.bind_some] at hnone
    exact State.entered_of_leaves hleaves hnone
  have hbetween : ∀ e ∈ between (opened timeout id) σ s m,
      e ∈ (after (opened timeout id) σ k).waiting ∨
        ∃ j, s ≤ j ∧ j < k ∧ input? (after (opened timeout id) σ j) (σ j) = some (.event e) := by
    have hposted := posted_opened timeout id σ k
    refine hposted.between ?_ hsk (Nat.le_of_lt hm)
    cases hl : (after (opened timeout id) σ k).room.listening with
    | true => rfl
    | false => exact absurd (hposted.listens hl) hgoing
  refine ⟨l.ticket.generation, s, i, m, r, ⟨hsi, him, hm⟩, hreign,
    ⟨who, f.look.ticket.key, y, a, hsent, hseq, hread, hview⟩, hheard, hquiet, hbetween,
    fun e he hleaving => (hbetween e he).imp_right ?_⟩
  rintro ⟨j, hsj, hj, hi⟩
  obtain ⟨hname, hstate⟩ := passed_over hleaving hi (hquiet j hsj hj e hi)
  exact ⟨hname, j, hsj, hj, hi, hstate⟩

/-! ### What is not looked at -/

/-- Where a deed leads. -/
theorem stand_deed {me : Nat} {x : Deed} (hx : deed? (after d σ n) (σ n) = some (me, x)) :
    (seat d σ (n + 1) me).stand = (seat d σ n me).stand.next x := by
  have hplace : seat d σ (n + 1) =
      Function.update (seat d σ n) me (asking.next (seat d σ n me) x) := place_deed hx
  rw [hplace, Function.update_self]
  rfl

/-- When it goes on, a task that looks does something that it may do. -/
theorem deed_task (hk : Kept asking d σ n) {me : Nat} (hσ : σ n = .task me)
    (hp : (seat d σ n me).stand ≠ .apart) :
    ∃ a, (seat d σ n me).stand.may a ∧ deed? (after d σ n) (σ n) =
      ((after d σ n).attempt me a).2.deed?.map fun x => (me, x) := by
  obtain ⟨a, hmay, hown⟩ := hk.own hp
  exact ⟨a, hmay, by rw [hσ, deed?, hown]⟩

/-- When a task goes on, neither the status of the session changes nor what waits for it. -/
theorem stays_task {me : Nat} (hσ : σ n = .task me) :
    (session d σ (n + 1)).status = (session d σ n).status ∧
    (after d σ (n + 1)).waiting = (after d σ n).waiting := by
  refine ⟨status_stays (by rw [entered?, hσ]; rfl), ?_⟩
  rw [after_succ, hσ]
  exact waiting_of_mail (mail_stride _ me)

/-- Who knows the answer brings it to the slot. -/
theorem delivers (hk : Kept asking d σ n) {me : Nat} {f : Fetch} {a : Answer}
    (hst : (seat d σ n me).stand = .told f) (ha : f.outcome = .ok a) (hσ : σ n = .task me) :
    (seat d σ (n + 1) me).stand = .checks f.look (.of f.look.ticket.generation a) := by
  obtain ⟨b, hmay, hx⟩ := deed_task hk hσ (by rw [hst]; exact nofun)
  rw [hst] at hmay
  cases b with
  | deliver k r =>
    obtain ⟨rfl, rfl⟩ : k = f.look.ticket ∧ r = f.outcome := hmay
    rw [(attempt_deliver (after d σ n) me _ _).2, ha] at hx
    rw [stand_deed hx, hst]
    rfl
  | _ => exact hmay.elim

/-- Who has the view has it checked, and is told of it if its generation is at hand. -/
theorem confirms (hk : Kept asking d σ n) (hl : Lockstep (session d σ n)) {me : Nat} {l : Look}
    {v : View} (hst : (seat d σ n me).stand = .checks l v)
    (hg : (session d σ n).status.generation = l.ticket.generation) (hgoing : ¬ (after d σ n).Over)
    (hσ : σ n = .task me) :
    deed? (after d σ n) (σ n) = some (me, ⟨.confirm l.ticket.generation v, .ok v⟩) := by
  obtain ⟨b, hmay, hx⟩ := deed_task hk hσ (by rw [hst]; exact nofun)
  rw [hst] at hmay
  cases b with
  | confirm g w =>
    obtain ⟨rfl, rfl⟩ : g = l.ticket.generation ∧ w = v := hmay
    have hclosed : (after d σ n).room.state.tree.closed = false :=
      Bool.eq_false_iff.mpr fun hc => hgoing (hl.closed.mp hc)
    have hcurrent : (after d σ n).room.state.tree.generation = l.ticket.generation :=
      hl.generation.symm.trans hg
    have hconfirm : (after d σ n).room.state.tree.confirm l.ticket.generation w = .ok w := by
      simp only [Tree.confirm, Tree.checkCurrent, hclosed, hcurrent, Bool.false_eq_true, if_false,
        if_true]
      rfl
    rw [hx]
    simp only [attempt, hconfirm]
    rfl
  | _ => exact hmay.elim

/-- **What waits is not looked at**: a task that is told of the answer while its generation is at hand is
told of the view, whichever events wait for the session. -/
theorem unseen {me : Nat} {l : Look} {seq : Int} {x : Exchange} {r : Response} {a : Answer}
    (hst : (seat (opened timeout id) σ n me).stand = .sent l seq)
    (hnext : own? (after (opened timeout id) σ n) me = some ⟨.response x, .ok r⟩)
    (hread : l.ticket.key.reading r = .ok a)
    (hg : (session (opened timeout id) σ n).status.generation = l.ticket.generation)
    (hgoing : ¬ (after (opened timeout id) σ n).Over)
    (hσ : ∀ j < 3, σ (n + j) = .task me) :
    deed? (after (opened timeout id) σ (n + 2)) (σ (n + 2)) = some (me, ⟨.confirm l.ticket.generation
      (.of l.ticket.generation a), .ok (.of l.ticket.generation a)⟩) ∧
    (after (opened timeout id) σ (n + 2)).waiting = (after (opened timeout id) σ n).waiting := by
  have hk := kept_asking timeout id σ
  obtain ⟨hstatus, hwaiting⟩ := stays_task (d := opened timeout id) (hσ 0 (by decide))
  obtain ⟨hstatus', hwaiting'⟩ := stays_task (d := opened timeout id) (hσ 1 (by decide))
  have hsame : (session (opened timeout id) σ (n + 2)).status =
      (session (opened timeout id) σ n).status := hstatus'.trans hstatus
  have hx : deed? (after (opened timeout id) σ n) (σ n) = some (me, ⟨.response x, .ok r⟩) := by
    rw [show σ n = .task me from hσ 0 (by decide), deed?, hnext]
    rfl
  have htold : (seat (opened timeout id) σ (n + 1) me).stand = .told ⟨l, some seq, .ok r⟩ := by
    rw [stand_deed hx, hst]
    rfl
  have hchecks := delivers (hk (n + 1)) htold hread (hσ 1 (by decide))
  refine ⟨?_, hwaiting'.trans hwaiting⟩
  refine confirms (hk (n + 2)) (lockstep (lockstep_opened timeout id) σ (n + 2)) hchecks ?_ ?_
    (hσ 2 (by decide))
  · rw [hsame, hg]
  · intro ho
    exact hgoing ((congrArg Status.state hsame).symm.trans ho)

/-! ### Whatever happens -/

/-- What is told of looks at the paused program. -/
structure Timely (timeout : Duration) (id : SessionId)
    (σ : Nat → Happening (Inspection.Fit (ρ := ρ))) (n : Nat) : Prop where
  /-- A call that is told of a view is told of one that was asked for and answered in its generation, in
  which the session has taken nothing that made it leave its state. -/
  told : ∀ c id' f q fits o, σ c = .call id' (f <$> inspect q) fits →
    Returned (opened timeout id) σ c n o → ∃ r : Except DebugError View, o = f r ∧
      ∀ v, r = .ok v → ∃ k < n, ∃ g s i m a, Behind (opened timeout id) σ k g v s i m a
  /-- But the events that wait for the session are not looked at. -/
  unseen : ∀ me l seq x r a, (seat (opened timeout id) σ n me).stand = .sent l seq →
    own? (after (opened timeout id) σ n) me = some ⟨.response x, .ok r⟩ →
    l.ticket.key.reading r = .ok a →
    (session (opened timeout id) σ n).status.generation = l.ticket.generation →
    ¬ (after (opened timeout id) σ n).Over → (∀ j < 3, σ (n + j) = .task me) →
    deed? (after (opened timeout id) σ (n + 2)) (σ (n + 2)) =
      some (me, ⟨.confirm l.ticket.generation (.of l.ticket.generation a),
        .ok (.of l.ticket.generation a)⟩) ∧
    (after (opened timeout id) σ (n + 2)).waiting = (after (opened timeout id) σ n).waiting

theorem timely (timeout : Duration) (id : SessionId)
    (σ : Nat → Happening (Inspection.Fit (ρ := ρ))) (n : Nat) : Timely timeout id σ n where
  told c id' f q fits o hc ho := by
    obtain ⟨t, ht, -, rfl⟩ := (shared timeout id σ n).results c id' f q fits o hc ho
    refine ⟨t.result, rfl, fun v hv => ?_⟩
    cases t with
    | refused q e => cases hv
    | failed g e => cases hv
    | checked l w r =>
      cases (show r = .ok v from hv)
      obtain ⟨k, hk, x, hx, hended⟩ := visited (d := opened timeout id) (n := n)
        (by rw [ht]; exact List.mem_singleton_self _)
      exact ⟨k, hk, behind hx hended⟩
  unseen _ _ _ _ _ _ := unseen

/-! ### An event that is overtaken -/

/-- A call is told of a view, although the event `e` stands between the input with which the generation
of the view began and the answer behind it. -/
def Overtaken (timeout : Duration) (id : SessionId)
    (σ : Nat → Happening (Inspection.Fit (ρ := Except DebugError View))) (n : Nat) (e : Event) : Prop :=
  ∃ c id' q fits v, σ c = .call id' (inspect q) fits ∧
    Returned (opened timeout id) σ c n (.ok v) ∧
    ∃ k < n, ∃ g s i m a, Behind (opened timeout id) σ k g v s i m a ∧
      e ∈ between (opened timeout id) σ s m

/-- An event is overtaken if it stands before the only answer that is read while a generation goes on
that had begun before it. -/
theorem overtaken {σ : Nat → Happening (Inspection.Fit (ρ := Except DebugError View))} {s m c id' : Nat}
    {q : Query} {fits : Inspection.Fit (inspect q)} {v : View} {e : Event}
    (hc : σ c = .call id' (inspect q) fits) (hv : Returned (opened timeout id) σ c n (.ok v))
    (hm : ∀ j < n, ∀ r, read? (after (opened timeout id) σ j) (σ j) = some (.response r) → j = m)
    (hs : s ≤ m) (hg : ∀ j < n, s ≤ j → (session (opened timeout id) σ j).status.generation =
      (session (opened timeout id) σ s).status.generation)
    (he : e ∈ between (opened timeout id) σ s m) : Overtaken timeout id σ n e := by
  have hfits : Inspection.Fit ((fun r => r) <$> inspect q) := by rw [map_same]; exact fits
  have hcall : σ c = .call id' ((fun r => r) <$> inspect q) hfits := by
    rw [hc]
    congr 1
    exact (map_same _).symm
  obtain ⟨r, rfl, htold⟩ := (timely timeout id σ n).told c id' _ q hfits _ hcall hv
  obtain ⟨k, hk, g, s', i, m', a, hbehind⟩ := htold v rfl
  obtain ⟨hsi, him, hmk⟩ := hbehind.order
  -- the answer is the one that was read, and the generation began no later than in `s`
  obtain rfl : m' = m := hm m' (Nat.lt_trans hmk hk) a hbehind.answered.reading
  have hbegan : s' ≤ s := by
    have hsk : s ≤ k := Nat.le_trans hs (Nat.le_of_lt hmk)
    refine (hbehind.reign s hsk).mp ((hg k hk hsk).symm.trans ?_)
    exact (hbehind.reign k (Nat.le_refl k)).mpr (by omega)
  refine ⟨c, id', q, fits, v, hc, hv, k, hk, g, s', i, m', a, hbehind, ?_⟩
  obtain ⟨later, htaken, -⟩ := taken_since (d := opened timeout id) (σ := σ) hbegan
  refine List.drop_subset_drop_left _ ?_ he
  rw [htaken, List.length_append]
  exact Nat.le_add_right _ _

end Behind

/-! ### Races -/

theorem fit_inspect (q : Query) : Inspection.Fit (inspect q) :=
  (adheres_inspect [] q).mono fun p r ⟨t, ht, hr, hp⟩ => by rw [hp]; rfl

/-- What happens where users look at the paused program. -/
abbrev Looking := Happening (Inspection.Fit (ρ := Except DebugError View))

/-- An event comes to the session; then a call puts its question and waits. The adapter sends other events
and, behind them, the answer, and all of them are read. -/
def questioned (first : Event) (q : Query) (es : List Event) (body : Json.Value) : List Looking :=
  [.outside (.arrive (Frame.encode (.event first))) rfl, .outside .read rfl, .outside .pass rfl,
    .session, .call 0 (inspect q) (fit_inspect q), .task 3, .task 3, .task 3, .outside .write rfl,
    .task 3, .outside (.arrive (Frame.frames (es.map .event ++
      [.response ⟨9, 1, true, q.key.command, none, some body⟩]))) rfl] ++
    List.replicate (es.length + 1) (.outside .read rfl)

/-- The program stops, and its stack is asked for. The call is told of the answer before the session takes
any of the events in front of it. -/
def racing (n : Nat) : Looking :=
  (questioned ⟨1, "stopped", none⟩ (.stackTrace 1)
    (leaving.map fun name => ⟨2, name, none⟩) (.obj [("stackFrames", .arr [.obj
      [("id", .int 7), ("name", .str "f"), ("line", .int 3)]])])).getD n (.task 3)

/-- While the program is set up, a group of variables is asked for. The session takes the event in front
of the answer, which is that the program goes on, before the call is told of the answer. -/
def unheeded (n : Nat) : Looking :=
  (questioned ⟨1, "initialized", none⟩ (.values ⟨⟨1⟩, 7⟩) [⟨2, "continued", none⟩]
    (.obj [("variables", .arr [.obj
      [("name", .str "x"), ("value", .str "5"), ("variablesReference", .int 8)]])]) ++
    [Happening.outside .pass rfl, Happening.session]).getD n (.task 3)

/-- The view that the call of the task `me` has come to. -/
def view? (d : Debugger (Except DebugError View)) (me : Nat) : Option View :=
  match d.task? me with
  | some (.call _ (.done (.ok v))) => some v
  | _ => none

/-- Whether a message is an answer. -/
def isAnswer : Message → Bool
  | .response _ => true
  | _ => false

/-- What can be seen of a run in which the call that begins in `4` is told of a view when `n` things have
happened: one answer was read, in `m`, all in the generation that had begun before the call, and behind
events of these names, and what waits for the session at last. -/
structure Seen (d : Debugger (Except DebugError View)) (σ : Nat → Looking) (m n : Nat) (v : View)
    (names waits : List String) : Prop where
  caller : caller d σ 4 = 3
  view : view? (after d σ n) 3 = some v
  answer : ∀ j < n, (read? (after d σ j) (σ j)).any isAnswer → j = m
  generation : ∀ j < n, 4 ≤ j →
    (session d σ j).status.generation = (session d σ 4).status.generation
  between : (between d σ 4 m).map (·.event) = names
  waits : (after d σ n).waiting.map (·.event) = waits

instance (d : Debugger (Except DebugError View)) (σ : Nat → Looking) (m n : Nat) (v : View)
    (names waits : List String) : Decidable (Seen d σ m n v names waits) :=
  decidable_of_iff (Crowd.caller d σ 4 = 3 ∧ view? (after d σ n) 3 = some v ∧
    (∀ j < n, (read? (after d σ j) (σ j)).any isAnswer → j = m) ∧
    (∀ j < n, 4 ≤ j → (session d σ j).status.generation = (session d σ 4).status.generation) ∧
    (Crowd.between d σ 4 m).map (·.event) = names ∧ (after d σ n).waiting.map (·.event) = waits)
    ⟨fun ⟨h₁, h₂, h₃, h₄, h₅, h₆⟩ => ⟨h₁, h₂, h₃, h₄, h₅, h₆⟩,
      fun ⟨h₁, h₂, h₃, h₄, h₅, h₆⟩ => ⟨h₁, h₂, h₃, h₄, h₅, h₆⟩⟩

theorem Seen.overtaken {timeout : Duration} {id : SessionId} {σ : Nat → Looking} {m n id' : Nat}
    {v : View} {names waits : List String} {q : Query} {fits : Inspection.Fit (inspect q)}
    (h : Seen (opened timeout id) σ m n v names waits)
    (hc : σ 4 = .call id' (inspect q) fits) (hm : 4 ≤ m) (hn : 4 < n) {name : String}
    (hname : name ∈ names) : ∃ e, e.event = name ∧ Overtaken timeout id σ n e := by
  have hreturned : Returned (opened timeout id) σ 4 n (.ok v) := by
    refine ⟨n, Nat.le_refl n, hn, ?_⟩
    rw [h.caller]
    have hv := h.view
    unfold view? at hv
    split at hv
    · next ht => cases hv; exact ⟨_, ht⟩
    · cases hv
  obtain ⟨e, he, rfl⟩ := List.mem_map.mp (h.between ▸ hname)
  exact ⟨e, rfl, Crowd.overtaken hc hreturned (fun j hj r hr => h.answer j hj (by rw [hr]; rfl)) hm
    h.generation he⟩

set_option maxRecDepth 20000 in
theorem seen_racing :
    Seen (opened ⟨5000⟩ ⟨1⟩) racing 15 19 (.frames [⟨⟨⟨1⟩, 7⟩, "f", none, 3, 0⟩]) leaving leaving := by
  unfold racing questioned
  simp only [opened_eq, Frame.frames_eq_spelled, Frame.encode_eq_spelled]
  decide +kernel

set_option maxRecDepth 20000 in
theorem seen_unheeded :
    Seen (opened ⟨5000⟩ ⟨1⟩) unheeded 12 18 (.values [⟨"x", "5", none, some ⟨⟨1⟩, 8⟩⟩])
      ["continued"] [] := by
  unfold unheeded questioned
  simp only [opened_eq, Frame.frames_eq_spelled, Frame.encode_eq_spelled]
  decide +kernel

/-- **Answers overtake events.** For any calls of any users in any order, and whatever the adapter sends: a
call that is told of a view is told of one that was asked for and answered in its generation, in which the
session has taken nothing that made it leave its state; but what waits for the session is not looked at.
So an answer is told of although all the events with which the adapter leaves a pause stand before it, and,
while the program is set up, behind one of them that the session has taken and passed over. -/
theorem overtaking (timeout : Duration) (id : SessionId)
    (σ : Nat → Happening (Inspection.Fit (ρ := ρ))) (n : Nat) :
    Timely timeout id σ n ∧
    (∃ τ m, ∀ name ∈ leaving, ∃ e, e.event = name ∧ Overtaken ⟨5000⟩ ⟨1⟩ τ m e) ∧
    ∃ τ m e, e.event = "continued" ∧ Overtaken ⟨5000⟩ ⟨1⟩ τ m e ∧
      (after (opened ⟨5000⟩ ⟨1⟩) τ m).waiting = [] := by
  refine ⟨timely timeout id σ n, ⟨racing, 19, fun name hname => ?_⟩, ?_⟩
  · exact seen_racing.overtaken rfl (by decide) (by decide) hname
  · obtain ⟨e, he, h⟩ :=
      seen_unheeded.overtaken rfl (by decide) (by decide) (List.mem_singleton_self _)
    exact ⟨unheeded, 18, e, he, h, List.map_eq_nil_iff.mp seen_unheeded.waits⟩

end Crowd
end DebugHost
