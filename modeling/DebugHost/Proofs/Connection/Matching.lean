import DebugHost.Proofs.Connection.Numbers

/-! # Answers and the requests they complete

The table of pending requests has the number of every request at most once, and no number of a request
that an answer has completed (`matched_after`): so an answer completes just one request, the one it
names, and a request is completed by one answer at most. A call that waits has its number in the table
until the reader takes its answer in, holds it and hands it over, or until the reader has emptied the
table at its end (`kept_after`). -/

namespace DebugHost.Traffic

open DebugHost.Json

/-! ### Numbers in the table -/

/-- The number of a call, once it has been put into the table. -/
def Call.entered? : Call → Option Int
  | .numbered .. => none
  | c => c.number?

/-- The number of a call that has put it into the table and not taken it away. -/
def Call.unsettled? : Call → Option Int
  | .entered seq .. => some seq
  | .sent e => some e.seq
  | .looked e => some e.seq
  | .patient e => some e.seq
  | .leaving e _ => some e.seq
  | .dropped e => some e.seq
  | _ => none

/-- The number of a call that may still be answered. -/
def Call.hopes? : Call → Option Int
  | .entered seq .. => some seq
  | .sent e => some e.seq
  | .looked e => some e.seq
  | .patient e => some e.seq
  | _ => none

theorem Call.number_of_entered {c : Call} {s : Int} (h : c.entered? = some s) : c.number? = some s := by
  cases c with
  | numbered seq command arguments => cases h
  | _ => exact h

theorem Call.entered_of_unsettled {c : Call} {s : Int} (h : c.unsettled? = some s) :
    c.entered? = some s := by
  cases c with
  | entered seq command arguments => exact h
  | sent e => exact h
  | looked e => exact h
  | patient e => exact h
  | leaving e error => exact h
  | dropped e => exact h
  | _ => cases h

theorem Call.number_of_hopes {c : Call} {s : Int} (h : c.hopes? = some s) : c.number? = some s := by
  cases c with
  | entered seq command arguments => exact h
  | sent e => exact h
  | looked e => exact h
  | patient e => exact h
  | _ => cases h

variable {x y : Traffic} {o : Option Call} {c' : Call} {conn : Connection} {ms : List Message}

/-- The number of the call `me`, once it has been put into the table. -/
def entered? (x : Traffic) (me : Nat) : Option Int := (x.calls me).bind Call.entered?

/-- The number of the call `me`, as long as it has not taken it out of the table. -/
def unsettled? (x : Traffic) (me : Nat) : Option Int := (x.calls me).bind Call.unsettled?

/-- The number of the call `me`, as long as it may be answered. -/
def hopes? (x : Traffic) (me : Nat) : Option Int := (x.calls me).bind Call.hopes?

theorem number_of_entered {me : Nat} {s : Int} (h : x.entered? me = some s) : x.number? me = some s :=
  bind_of Call.number_of_entered h

theorem number_of_hopes {me : Nat} {s : Int} (h : x.hopes? me = some s) : x.number? me = some s :=
  bind_of Call.number_of_hopes h

/-- What a move of a call does to the table and to the answers that wait: nothing, or it puts its number
into the table, or it takes its number and its answer away. -/
inductive Goes.Tables (x : Traffic) (o : Option Call) (c' : Call) (conn : Connection) : Prop where
  | same (hp : conn.pending = x.connection.pending) (ha : conn.answers = x.connection.answers)
    (he : ∀ s, o.bind Call.entered? = some s → c'.entered? = some s)
    (hu : ∀ s, o.bind Call.unsettled? = some s → c'.unsettled? = some s)
    (hh : ∀ s, c'.hopes? = some s → o.bind Call.hopes? = some s)
  | enters (s : Int) (hn : o.bind Call.number? = some s) (ho : o.bind Call.entered? = none)
    (he : c'.entered? = some s) (hu : c'.unsettled? = some s)
    (hp : conn.pending = x.connection.pending ++ [s])
    (ha : conn.answers = x.connection.answers)
  | leaves (s : Int) (ho : o.bind Call.entered? = some s) (he : c'.entered? = some s)
    (hh : c'.hopes? = none) (hp : conn.pending = x.connection.pending.filter (· != s))
    (ha : conn.answers = x.connection.answers.filter (·.1 != s))

theorem Goes.tables (h : Goes x o c' conn ms) : Goes.Tables x o c' conn := by
  cases h with
  | asked => exact .same rfl rfl (fun s h => h) (fun s h => h) (fun s h => h)
  | waits => exact .same rfl rfl (fun s h => h) (fun s h => h) (fun s h => h)
  | dropped => exact .same rfl rfl (fun s h => h) (fun s h => h) (fun s h => by cases h)
  | steps h =>
    cases h with
    | refused hc => exact .same rfl rfl (fun s h => h) (fun s h => h) (fun s h => h)
    | admitted hc => exact .same rfl rfl (fun s h => h) (fun s h => h) (fun s h => h)
    | numbered => exact .same rfl rfl (fun s h => h) (fun s h => h) (fun s h => h)
    | entered => exact .enters _ rfl rfl rfl rfl rfl rfl
    | unsent ho => exact .same rfl rfl (fun s h => h) (fun s h => h) (fun s h => by cases h)
    | sent ho => exact .same rfl rfl (fun s h => h) (fun s h => h) (fun s h => h)
    | answered hd ha => exact .leaves _ rfl rfl rfl rfl rfl
    | cut hd ha hp hi => exact .leaves _ rfl rfl rfl rfl rfl
    | looked hd ha => exact .same rfl rfl (fun s h => h) (fun s h => h) (fun s h => h)
    | late hl => exact .same rfl rfl (fun s h => h) (fun s h => h) (fun s h => by cases h)
    | patient => exact .same rfl rfl (fun s h => h) (fun s h => h) (fun s h => h)
    | closed hc => exact .same rfl rfl (fun s h => h) (fun s h => h) (fun s h => by cases h)
    | parked hc => exact .same rfl rfl (fun s h => h) (fun s h => h) (fun s h => h)
    | left => exact .leaves _ rfl rfl rfl rfl rfl
    | stays c => exact .same rfl rfl (fun s h => h) (fun s h => h) (fun s h => h)

/-! ### Answers that wait -/

section

variable {c : Connection} {s seq : Int} {r : Response}

/-- An answer that waits stays where others come behind it. -/
theorem answer?_append (h : c.answer? seq = some r) (more : List (Int × Response)) :
    { c with answers := c.answers ++ more }.answer? seq = some r := by
  unfold Connection.answer? at h ⊢
  obtain ⟨a, hf, hr⟩ := Option.map_eq_some_iff.mp h
  rw [List.find?_append, hf]
  exact congrArg some hr

theorem answer?_last (c : Connection) (r : Response) :
    { c with answers := c.answers ++ [(r.requestSeq, r)] }.answer? r.requestSeq ≠ none := by
  unfold Connection.answer?
  rw [List.find?_append]
  cases c.answers.find? (·.1 == r.requestSeq) with
  | some a => simp
  | none => simp

/-- An answer that waits stays where those to another request are taken away. -/
theorem answer?_filter {d : Connection} (ha : d.answers = c.answers.filter (·.1 != s)) (hne : seq ≠ s) :
    d.answer? seq = c.answer? seq := by
  unfold Connection.answer?
  rw [ha, List.find?_filter]
  congr 2
  funext a
  by_cases he : a.1 = seq
  · simp [he, hne]
  · simp [he]

theorem answer?_congr {d : Connection} (ha : d.answers = c.answers) (seq : Int) :
    d.answer? seq = c.answer? seq := by
  unfold Connection.answer?
  rw [ha]

theorem mem_of_answer? (h : c.answer? seq = some r) : (seq, r) ∈ c.answers := by
  obtain ⟨a, hf, rfl⟩ := Option.map_eq_some_iff.mp h
  have hseq : a.1 = seq := eq_of_beq (List.find?_some hf :)
  exact hseq ▸ List.mem_of_find?_eq_some hf

end

/-! ### What is matched -/

/-- The numbers of the requests that are pending or completed. -/
def matchable (x : Traffic) : List Int := x.connection.pending ++ x.completed.map (·.requestSeq)

/-- Requests are pending once and completed once, and each of them is that of a call, which has not
ended where it is pending; answers are where they belong. -/
structure Matched (x : Traffic) : Prop where
  nodup : x.matchable.Nodup
  entered : ∀ s ∈ x.matchable, ∃ me, x.entered? me = some s
  unsettled : ∀ s ∈ x.connection.pending, ∃ me, x.unsettled? me = some s
  answers : ∀ p ∈ x.connection.answers, p.2.requestSeq = p.1 ∧ p.2 ∈ x.completed
  held : ∀ r, x.intake = .holding r → r ∈ x.completed
  answered : ∀ me e r, x.calls me = some (.answered e r) → r.requestSeq = e.seq ∧ r ∈ x.completed

theorem matched_start (timeout : Duration) : Matched (start timeout) where
  nodup := List.nodup_nil
  entered := List.forall_mem_nil _
  unsettled := List.forall_mem_nil _
  answers := List.forall_mem_nil _
  held r h := by cases h
  answered me e r h := by cases h

theorem Matched.of_same (h : Matched x) (hp : y.connection.pending = x.connection.pending)
    (ha : y.connection.answers = x.connection.answers) (hc : y.calls = x.calls)
    (hd : y.completed = x.completed) (hi : ∀ r, y.intake = .holding r → x.intake = .holding r) :
    Matched y where
  nodup := by
    unfold matchable
    rw [hp, hd]
    exact h.nodup
  entered := by
    unfold matchable entered?
    rw [hp, hd, hc]
    exact h.entered
  unsettled := by
    unfold unsettled?
    rw [hp, hc]
    exact h.unsettled
  answers := by
    rw [ha, hd]
    exact h.answers
  held r hr := by
    rw [hd]
    exact h.held r (hi r hr)
  answered := by
    rw [hc, hd]
    exact h.answered

/-- A call that comes to have its answer takes one that waits for it. -/
theorem Goes.answered {e : Exchange} {r : Response} (h : Goes x o (.answered e r) conn ms) :
    o = some (.answered e r) ∨ x.connection.answer? e.seq = some r := by
  cases h with
  | steps h =>
    cases h with
    | answered hd ha => exact Or.inr ha
    | stays c => exact Or.inl rfl

/-- What a call has stays with it when a call moves, unless that call itself loses it. -/
theorem put_keeps {f : Call → Option Int} {me : Nat} (hme : x.calls me = o)
    (hc : ∀ s, o.bind f = some s → f c' = some s) {s : Int}
    (h : ∃ i, (x.calls i).bind f = some s) :
    ∃ i, ((x.put me c' conn ms).calls i).bind f = some s := by
  obtain ⟨i, hi⟩ := h
  refine ⟨i, ?_⟩
  rw [put_bind]
  split
  · next heq =>
    rw [heq, hme] at hi
    exact hc s hi
  · exact hi

/-- What is matched stays so when a call moves. -/
theorem Matched.call (h : Matched x) (hnum : Numbered x) {me : Nat} (hme : x.calls me = o)
    (hgoes : Goes x o c' conn ms) : Matched (x.put me c' conn ms) := by
  have hmine : ∀ f : Call → Option Int, (x.calls me).bind f = o.bind f := fun f => by rw [hme]
  have hanswered : ∀ i e r, (x.put me c' conn ms).calls i = some (.answered e r) →
      r.requestSeq = e.seq ∧ r ∈ x.completed := by
    intro i e r hi
    rw [put_calls] at hi
    split at hi
    · cases Option.some.inj hi
      rcases hgoes.answered with ho | ha
      · exact h.answered me e r (hme.trans ho)
      · exact h.answers _ (mem_of_answer? ha)
    · exact h.answered i e r hi
  cases hgoes.tables with
  | same hp ha he hu hh =>
    have hmatch : (x.put me c' conn ms).matchable = x.matchable := congrArg (· ++ _) hp
    refine ⟨hmatch ▸ h.nodup, ?_, ?_, ?_, h.held, hanswered⟩
    · rw [hmatch]
      exact fun s hs => put_keeps hme he (h.entered s hs)
    · intro s hs
      exact put_keeps hme hu (h.unsettled s (hp ▸ hs))
    · intro p hmem
      exact h.answers p (ha ▸ hmem)
  | enters s hn ho he hu hp ha =>
    have hmatch : (x.put me c' conn ms).matchable =
        x.connection.pending ++ [s] ++ x.completed.map (·.requestSeq) := congrArg (· ++ _) hp
    have hperm : (x.put me c' conn ms).matchable.Perm (s :: x.matchable) := by
      rw [hmatch, List.append_assoc]
      exact List.perm_middle
    have hfresh : s ∉ x.matchable := by
      intro hs
      obtain ⟨i, hi⟩ := h.entered s hs
      obtain rfl := hnum.own i me s (number_of_entered hi) ((hmine _).trans hn)
      rw [entered?, hmine, ho] at hi
      cases hi
    -- the call itself had no number in the table before
    have hnone : o.bind Call.unsettled? = none := by
      cases hs : o.bind Call.unsettled? with
      | none => rfl
      | some s' =>
        have hentered : o.bind Call.entered? = some s' := bind_of Call.entered_of_unsettled hs
        rw [ho] at hentered
        cases hentered
    refine ⟨hperm.nodup_iff.mpr (List.nodup_cons.mpr ⟨hfresh, h.nodup⟩), ?_, ?_, ?_, h.held,
      hanswered⟩
    · intro s' hs'
      rcases List.mem_cons.mp (hperm.mem_iff.mp hs') with rfl | hs'
      · exact ⟨me, by rw [entered?, put_bind, if_pos rfl, he]⟩
      · exact put_keeps hme (fun s hs => by rw [ho] at hs; cases hs) (h.entered s' hs')
    · intro s' hs'
      have hmem : s' ∈ conn.pending := hs'
      rw [hp] at hmem
      rcases List.mem_append.mp hmem with hmem | hmem
      · exact put_keeps hme (fun s hs => by rw [hnone] at hs; cases hs) (h.unsettled s' hmem)
      · exact ⟨me, by rw [unsettled?, put_bind, if_pos rfl, hu, List.mem_singleton.mp hmem]⟩
    · intro p hmem
      exact h.answers p (ha ▸ hmem)
  | leaves s ho he hh hp ha =>
    have hsub : (x.put me c' conn ms).matchable.Sublist x.matchable := by
      show (conn.pending ++ _).Sublist _
      rw [hp]
      exact List.filter_sublist.append (List.Sublist.refl _)
    refine ⟨hsub.nodup h.nodup, ?_, ?_, ?_, h.held, hanswered⟩
    · intro s' hs'
      refine put_keeps hme (fun t ht => ?_) (h.entered s' (hsub.subset hs'))
      rw [ho] at ht
      rw [he, ht]
    · intro s' hs'
      have hmem : s' ∈ conn.pending := hs'
      rw [hp] at hmem
      obtain ⟨hmem, hne⟩ := List.mem_filter.mp hmem
      obtain ⟨i, hi⟩ := h.unsettled s' hmem
      refine ⟨i, ?_⟩
      rw [unsettled?, put_bind]
      split
      · next heq =>
        -- the call that moves has only the number that goes away
        rw [heq, unsettled?, hmine] at hi
        have hentered : o.bind Call.entered? = some s' := bind_of Call.entered_of_unsettled hi
        exact absurd (Option.some.inj (hentered.symm.trans ho)) (bne_iff_ne.mp hne)
      · exact hi
    · intro p hmem
      have hmem' : p ∈ conn.answers := hmem
      rw [ha] at hmem'
      exact h.answers p (List.mem_filter.mp hmem').1

/-- What is matched stays so when the reader takes something in. -/
theorem Matched.takes (h : Matched x) (ht : Takes x y) : Matched y := by
  have hfree : ∀ {z : Intake}, z = .reading → ∀ r, z = .holding r → x.intake = .holding r := by
    intro z hz r hr
    rw [hz] at hr
    cases hr
  cases ht with
  | nothing r hn => exact h.of_same rfl rfl rfl rfl fun r hr => hr
  | last o r reason hn ho => exact h.of_same rfl rfl rfl rfl fun r hr => by cases hr
  | message m hn hm =>
    cases hm.handles with
    | event e hconn hy hcompleted =>
      exact h.of_same (congrArg Connection.pending hconn :) (congrArg Connection.answers hconn :) hm.calls
        hcompleted (hfree hy)
    | refused q ho hconn hy hcompleted =>
      exact h.of_same (congrArg Connection.pending hconn :) (congrArg Connection.answers hconn :) hm.calls
        hcompleted (hfree hy)
    | unheard q ho hconn hy hcompleted =>
      exact h.of_same (congrArg Connection.pending hconn :) (congrArg Connection.answers hconn :) hm.calls
        hcompleted (hfree hy)
    | orphan a hout hconn hy hcompleted =>
      exact h.of_same (congrArg Connection.pending hconn :) (congrArg Connection.answers hconn :) hm.calls
        hcompleted (hfree hy)
    | completes a hin hconn hy hcompleted =>
      have hp : y.connection.pending = x.connection.pending.filter (· != a.requestSeq) :=
        congrArg Connection.pending hconn
      have ha : y.connection.answers = x.connection.answers := by
        rw [hconn]
        rfl
      have hmatch : y.matchable = x.connection.pending.filter (· != a.requestSeq) ++
          x.completed.map (·.requestSeq) ++ [a.requestSeq] := by
        rw [matchable, hp, hcompleted, List.map_append, ← List.append_assoc]
        rfl
      have hold : ∀ {s}, s ∈ x.connection.pending.filter (· != a.requestSeq) ++
          x.completed.map (·.requestSeq) → s ∈ x.matchable :=
        fun hs => (List.filter_sublist.append (List.Sublist.refl _)).subset hs
      -- the number moves from the pending requests to the completed ones
      obtain ⟨-, -, hdisjoint⟩ := List.nodup_append.mp h.nodup
      refine ⟨?_, ?_, ?_, ?_, ?_, ?_⟩
      · rw [hmatch]
        refine List.nodup_append.mpr ⟨?_, List.nodup_singleton _, ?_⟩
        · exact (List.filter_sublist.append (List.Sublist.refl _)).nodup h.nodup
        · intro s hs t ht hst
          have heq : s = a.requestSeq := hst.trans (List.mem_singleton.mp ht)
          rcases List.mem_append.mp hs with hs | hs
          · exact absurd heq (bne_iff_ne.mp (List.mem_filter.mp hs).2)
          · exact hdisjoint _ hin s hs heq.symm
      · intro s hs
        rw [hmatch] at hs
        unfold entered?
        rw [hm.calls]
        rcases List.mem_append.mp hs with hs | hs
        · exact h.entered s (hold hs)
        · rw [List.mem_singleton.mp hs]
          exact h.entered _ (List.mem_append_left _ hin)
      · intro s hs
        rw [hp] at hs
        unfold unsettled?
        rw [hm.calls]
        exact h.unsettled s (List.mem_filter.mp hs).1
      · intro p hmem
        rw [ha] at hmem
        rw [hcompleted]
        exact ⟨(h.answers p hmem).1, List.mem_append_left _ (h.answers p hmem).2⟩
      · intro r hr
        rw [hy] at hr
        cases hr
        rw [hcompleted]
        exact List.mem_append_right _ (List.mem_singleton_self _)
      · intro me e r hr
        rw [hm.calls] at hr
        rw [hcompleted]
        exact ⟨(h.answered me e r hr).1, List.mem_append_left _ (h.answered me e r hr).2⟩

theorem Matched.change (hc : Change x y) (hnum : Numbered x) (h : Matched x) : Matched y := by
  cases hc with
  | call me hme hgoes => exact h.call hnum hme hgoes
  | takes hi ht => exact h.takes ht
  | hands r hi =>
    refine ⟨h.nodup, h.entered, h.unsettled, ?_, fun r' hr' => (by cases hr'), h.answered⟩
    intro p hp
    rcases List.mem_append.mp hp with hp | hp
    · exact h.answers p hp
    · rw [List.mem_singleton.mp hp]
      exact ⟨rfl, h.held r hi⟩
  | abandons reason hi hc =>
    have hsub : (x.completed.map (·.requestSeq)).Sublist x.matchable := List.sublist_append_right ..
    exact ⟨hsub.nodup h.nodup, fun s hs => h.entered s (hsub.subset hs), List.forall_mem_nil _,
      h.answers, fun r' hr' => (by cases hr'), h.answered⟩
  | stops reason hi => exact h.of_same rfl rfl rfl rfl fun r hr => by cases hr
  | records reason hi => exact h.of_same rfl rfl rfl rfl fun r hr => by cases hr
  | ends reason hi => exact h.of_same rfl rfl rfl rfl fun r hr => by cases hr
  | idle => exact h
  | _ => exact h.of_same rfl rfl rfl rfl fun r hr => hr

/-- **Answers are matched after every schedule.** -/
theorem matched_after (timeout : Duration) (σ : Nat → Move) (n : Nat) : Matched (after timeout σ n) :=
  (after_keeps (P := fun x => Numbered x ∧ Matched x) timeout
    ⟨numbered_start timeout, matched_start timeout⟩
    (fun _ _ hc h => ⟨h.1.change hc, h.2.change hc h.1⟩) σ n).2

/-! ### What is kept for a call -/

/-- Whether the reader has emptied the table. -/
def Intake.isOver : Intake → Bool
  | .abandoned _ => true
  | .ended => true
  | _ => false

/-- The table, the reader or the answers have something for each call that may be answered, unless the
reader has emptied the table. -/
def Kept (x : Traffic) : Prop :=
  ∀ me s, x.hopes? me = some s → s ∈ x.connection.pending ∨ x.intake.holds s = true ∨
    x.connection.answer? s ≠ none ∨ x.intake.isOver = true

theorem Kept.of_same (h : Kept x) (hp : y.connection.pending = x.connection.pending)
    (ha : y.connection.answers = x.connection.answers) (hc : y.calls = x.calls)
    (hh : ∀ s, x.intake.holds s = true → y.intake.holds s = true)
    (ho : x.intake.isOver = true → y.intake.isOver = true) : Kept y := by
  intro me s hs
  unfold hopes? at hs
  rw [hc] at hs
  rw [hp, answer?_congr ha]
  exact (h me s hs).imp_right (Or.imp (hh s) (Or.imp_right ho))

/-- Something is kept for each call when a call moves. -/
theorem Kept.call (h : Kept x) (hnum : Numbered x) {me : Nat} (hme : x.calls me = o)
    (hgoes : Goes x o c' conn ms) : Kept (x.put me c' conn ms) := by
  have hmine : ∀ f : Call → Option Int, (x.calls me).bind f = o.bind f := fun f => by rw [hme]
  intro i s hs
  unfold hopes? at hs
  rw [put_bind] at hs
  show s ∈ conn.pending ∨ x.intake.holds s = true ∨ conn.answer? s ≠ none ∨ x.intake.isOver = true
  cases hgoes.tables with
  | same hp ha he hu hh =>
    rw [hp, answer?_congr ha]
    split at hs
    · exact h me s ((hmine _).trans (hh s hs))
    · exact h i s hs
  | enters s' hn ho he hu hp ha =>
    rw [hp, answer?_congr ha]
    split at hs
    · have heq : s = s' := Option.some.inj
        ((Call.number_of_hopes hs).symm.trans (Call.number_of_entered he))
      exact Or.inl (List.mem_append_right _ (List.mem_singleton.mpr heq))
    · exact (h i s hs).imp_left (List.mem_append_left _)
  | leaves s' ho he hh hp ha =>
    split at hs
    · rw [hh] at hs
      cases hs
    · next hi =>
      -- what goes away has the number of the call that moves, and no other call has it
      have hne : s ≠ s' := by
        rintro rfl
        exact hi (hnum.own i me s (number_of_hopes hs) (number_of_entered ((hmine _).trans ho)))
      rw [hp, answer?_filter ha hne]
      exact (h i s hs).imp_left fun hp => List.mem_filter.mpr ⟨hp, bne_iff_ne.mpr hne⟩

/-- Something is kept for each call when the reader takes something in. -/
theorem Kept.takes (h : Kept x) (hi : x.intake = .reading) (ht : Takes x y) : Kept y := by
  have hholds : ∀ {s} {P : Prop}, x.intake.holds s = true → P := by
    intro s P hs
    rw [hi] at hs
    cases hs
  have hover : ∀ {P : Prop}, x.intake.isOver = true → P := by
    intro P ho
    rw [hi] at ho
    cases ho
  cases ht with
  | nothing r hn => exact h.of_same rfl rfl rfl (fun s hs => hs) (fun ho => ho)
  | last o r reason hn ho => exact h.of_same rfl rfl rfl (fun s hs => hholds hs) (fun ho => hover ho)
  | message m hn hm =>
    cases hm.handles with
    | event e hconn =>
      exact h.of_same (congrArg Connection.pending hconn :) (congrArg Connection.answers hconn :) hm.calls
        (fun s hs => hholds hs) (fun ho => hover ho)
    | refused q ho hconn =>
      exact h.of_same (congrArg Connection.pending hconn :) (congrArg Connection.answers hconn :) hm.calls
        (fun s hs => hholds hs) (fun ho => hover ho)
    | unheard q ho hconn =>
      exact h.of_same (congrArg Connection.pending hconn :) (congrArg Connection.answers hconn :) hm.calls
        (fun s hs => hholds hs) (fun ho => hover ho)
    | orphan a hout hconn =>
      exact h.of_same (congrArg Connection.pending hconn :) (congrArg Connection.answers hconn :) hm.calls
        (fun s hs => hholds hs) (fun ho => hover ho)
    | completes a hin hconn hy =>
      intro me s hs
      unfold hopes? at hs
      rw [hm.calls] at hs
      rw [hconn, hy, answer?_congr (d := x.connection.forget a.requestSeq) (c := x.connection) rfl]
      by_cases heq : s = a.requestSeq
      · exact Or.inr (Or.inl (decide_eq_true heq.symm))
      · rcases h me s hs with hp | hh | ha | ho
        · exact Or.inl (List.mem_filter.mpr ⟨hp, bne_iff_ne.mpr heq⟩)
        · exact hholds hh
        · exact Or.inr (Or.inr (Or.inl ha))
        · exact hover ho

theorem Kept.change (hc : Change x y) (hnum : Numbered x) (h : Kept x) : Kept y := by
  cases hc with
  | call me hme hgoes => exact h.call hnum hme hgoes
  | takes hi ht => exact h.takes hi ht
  | hands r hi =>
    intro me s hs
    rcases h me s hs with hp | hh | ha | ho
    · exact Or.inl hp
    · rw [hi] at hh
      obtain rfl : r.requestSeq = s := of_decide_eq_true hh
      exact Or.inr (Or.inr (Or.inl (answer?_last _ r)))
    · obtain ⟨r', hr'⟩ := Option.ne_none_iff_exists'.mp ha
      have hstays := answer?_append hr' [(r.requestSeq, r)]
      exact Or.inr (Or.inr (Or.inl (Option.ne_none_iff_exists'.mpr ⟨r', hstays⟩)))
    · rw [hi] at ho
      cases ho
  | abandons reason hi hc => exact fun me s _ => Or.inr (Or.inr (Or.inr rfl))
  | stops reason hi =>
    exact h.of_same rfl rfl rfl (fun s hs => by rw [hi] at hs; cases hs)
      (fun ho => by rw [hi] at ho; cases ho)
  | records reason hi =>
    exact h.of_same rfl rfl rfl (fun s hs => by rw [hi] at hs; cases hs)
      (fun ho => by rw [hi] at ho; cases ho)
  | ends reason hi =>
    exact h.of_same rfl rfl rfl (fun s hs => by rw [hi] at hs; cases hs) (fun _ => rfl)
  | idle => exact h
  | _ => exact h.of_same rfl rfl rfl (fun s hs => hs) (fun ho => ho)

/-- **Something is kept for each call that may be answered**, after every schedule. -/
theorem kept_after (timeout : Duration) (σ : Nat → Move) (n : Nat) : Kept (after timeout σ n) :=
  (after_keeps (P := fun x => Numbered x ∧ Kept x) timeout
    ⟨numbered_start timeout, fun me s hs => by cases hs⟩
    (fun _ _ hc h => ⟨h.1.change hc, h.2.change hc h.1⟩) σ n).2

end DebugHost.Traffic
