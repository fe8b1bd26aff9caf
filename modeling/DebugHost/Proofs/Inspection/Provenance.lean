import DebugHost.Proofs.Inspection.Scene

/-! # Where views come from

A slot may be filled long after its generation has gone, by a call that took it in time, and a call
may find it so. What ties slots, calls and generations together is their history: every ticket was
taken by a move (`Taken`), every view in a slot is the answer to a call that asked with a ticket of that
slot (`Filled`), and tickets of one slot were taken in one generation for one question
(`tickets_agree`), as a slot leaves the cache with its generation and never comes back. -/

namespace DebugHost.Inspection

open Scene

variable (σ : Nat → Move)

/-- The call `me` took the ticket `k` before move `n`. -/
def Taken (n me : Nat) (k : Ticket) : Prop := ∃ j q, j < n ∧ Takes σ j me q k

/-- Before move `n` a call asked with a ticket of the slot `i`, and the view `v` is that of the answer
it got. -/
def Filled (n i : Nat) (v : View) : Prop :=
  ∃ b s e k a, s < e ∧ e < n ∧ k.slot = i ∧ Taken σ s b k ∧ Asks σ s b k ∧
    Answers σ e b k (.ok a) ∧ v = View.of k.generation a

/-- The history that brings the call `me` to its place. -/
def Backed (n me : Nat) : Call → Prop
  | .start _ => True
  | .joined k => Taken σ n me k
  | .asking k => ∃ s, s < n ∧ Taken σ s me k ∧ Asks σ s me k
  | .check g v => ∃ k, k.generation = g ∧ Taken σ n me k ∧ Filled σ n k.slot v

/-- Everything in a scene has a history. -/
structure Provenance (n : Nat) : Prop where
  slots : ∀ i v, ((after σ n).tree.slot i).value = some v → Filled σ n i v
  calls : ∀ me c, (after σ n).call? me = some c → Backed σ n me c

variable {σ}

theorem Taken.mono {n n' me : Nat} {k : Ticket} (hn : n ≤ n') (h : Taken σ n me k) :
    Taken σ n' me k := by
  obtain ⟨j, q, hj, ht⟩ := h
  exact ⟨j, q, by omega, ht⟩

theorem Filled.mono {n n' i : Nat} {v : View} (hn : n ≤ n') (h : Filled σ n i v) :
    Filled σ n' i v := by
  obtain ⟨b, s, e, k, a, hs, he, h⟩ := h
  exact ⟨b, s, e, k, a, hs, by omega, h⟩

theorem Backed.mono {n n' me : Nat} {c : Call} (hn : n ≤ n') (h : Backed σ n me c) :
    Backed σ n' me c := by
  cases c with
  | start q => trivial
  | joined k => exact Taken.mono hn h
  | asking k =>
    obtain ⟨s, hs, h⟩ := h
    exact ⟨s, by omega, h⟩
  | check g v =>
    obtain ⟨k, hk, ht, hf⟩ := h
    exact ⟨k, hk, ht.mono hn, hf.mono hn⟩

/-! ### Every move keeps the history -/

/-- A move that leaves calls and slots as they are keeps the history. -/
theorem Provenance.same {n : Nat} (h : Provenance σ n)
    (hcalls : (after σ (n + 1)).calls = (after σ n).calls)
    (hslots : (after σ (n + 1)).tree.slots = (after σ n).tree.slots) : Provenance σ (n + 1) := by
  refine ⟨fun i v hv => ?_, fun i c hc => ?_⟩
  · unfold Tree.slot at hv
    rw [hslots] at hv
    exact (h.slots i v hv).mono (Nat.le_succ n)
  · unfold call? at hc
    rw [hcalls] at hc
    exact (h.calls i c hc).mono (Nat.le_succ n)

/-- A move of the call `me` keeps the history, if it brings `me` to a place with a history and fills
slots only with what has one. -/
theorem Provenance.put {n me : Nat} {t : Turn} {tree : Tree} (h : Provenance σ n)
    (hm : after σ (n + 1) = (after σ n).put me t tree)
    (hslots : ∀ i v, (tree.slot i).value = some v → Filled σ (n + 1) i v)
    (hcall : ∀ c, t.call? = some c → Backed σ (n + 1) me c) : Provenance σ (n + 1) := by
  refine ⟨?_, ?_⟩
  · intro i v hv
    rw [hm] at hv
    exact hslots i v hv
  · intro i c hc
    rw [hm, put_call?] at hc
    split at hc
    · next hi => subst hi; exact hcall c hc
    · exact (h.calls i c hc).mono (Nat.le_succ n)

theorem Provenance.begin {n me : Nat} {q : Query} (h : Provenance σ n) (hm : σ n = .begin me q) :
    Provenance σ (n + 1) := by
  have hs := after_succ σ hm
  unfold move at hs
  simp only at hs
  split at hs
  · refine h.put hs (fun i v hv => (h.slots i v hv).mono (Nat.le_succ n)) fun c hc => ?_
    cases hc
    trivial
  · exact h.same (by rw [hs]) (by rw [hs])

theorem Provenance.step {n me : Nat} (h : Provenance σ n) (hm : σ n = .step me) :
    Provenance σ (n + 1) := by
  have hs := after_succ σ hm
  have hold : ∀ i v, ((after σ n).tree.slot i).value = some v → Filled σ (n + 1) i v :=
    fun i v hv => (h.slots i v hv).mono (Nat.le_succ n)
  unfold move at hs
  simp only at hs
  split at hs
  · exact h.same (by rw [hs]) (by rw [hs])
  · next c hc =>
    have hb := h.calls me c hc
    cases c with
    | start q =>
      rcases step_start me (after σ n).tree q with ⟨e, -, he⟩ | ⟨g, -, he⟩
      · rw [he] at hs
        exact h.put hs hold fun c hc => by cases hc
      · rw [he] at hs
        refine h.put hs (fun i v hv => ?_) fun c' hc' => ?_
        · rw [Tree.slot_slotFor] at hv; exact hold i v hv
        · cases hc'
          exact ⟨n, q, Nat.lt_succ_self n, hm, hc, by rw [hs, put_call?, if_pos rfl]; rfl⟩
    | joined k =>
      rcases step_joined me (after σ n).tree k with ⟨v, hv, he⟩ | he | he
      · rw [he] at hs
        refine h.put hs hold fun c' hc' => ?_
        cases hc'
        exact ⟨k, rfl, Taken.mono (Nat.le_succ n) hb, hold _ v hv⟩
      · rw [he] at hs
        refine h.put hs (fun i v hv => ?_) fun c' hc' => ?_
        · rw [Tree.value_acquire] at hv; exact hold i v hv
        · cases hc'
          exact ⟨n, Nat.lt_succ_self n, hb, hm, hc, by rw [hs, put_call?, if_pos rfl]; rfl⟩
      · rw [he] at hs
        refine h.put hs (fun i v hv => ?_) fun c' hc' => ?_
        · rw [Tree.value_acquire] at hv; exact hold i v hv
        · cases hc'
          exact Taken.mono (Nat.le_succ n) hb
    | asking k =>
      refine h.put hs hold fun c' hc' => ?_
      cases hc'
      exact Backed.mono (Nat.le_succ n) hb
    | check g v => exact h.put hs hold fun c' hc' => by cases hc'

theorem Provenance.answer {n me : Nat} {r : Except DebugError Answer} (h : Provenance σ n)
    (hm : σ n = .answer me r) : Provenance σ (n + 1) := by
  have hs := after_succ σ hm
  have hold : ∀ i v, ((after σ n).tree.slot i).value = some v → Filled σ (n + 1) i v :=
    fun i v hv => (h.slots i v hv).mono (Nat.le_succ n)
  unfold move at hs
  simp only at hs
  split at hs
  · exact h.same (by rw [hs]) (by rw [hs])
  · next c hc =>
    have hb := h.calls me c hc
    cases c with
    | start q => exact h.put hs hold fun c' hc' => by cases hc'; trivial
    | joined k =>
      exact h.put hs hold fun c' hc' => by cases hc'; exact Backed.mono (Nat.le_succ n) hb
    | check g v =>
      exact h.put hs hold fun c' hc' => by cases hc'; exact Backed.mono (Nat.le_succ n) hb
    | asking k =>
      obtain ⟨s, hsn, htaken, hasks⟩ := hb
      -- the view of a good answer is filled in by this very move
      have hnew : ∀ a, r = .ok a → Filled σ (n + 1) k.slot (View.of k.generation a) := by
        intro a ha
        exact ⟨me, s, n, k, a, hsn, Nat.lt_succ_self n, rfl, htaken, hasks, ⟨ha ▸ hm, hc⟩, rfl⟩
      refine h.put hs (fun i v hv => ?_) fun c' hc' => ?_
      · rw [answered_tree] at hv
        rcases Tree.value_deliver hv with hv | ⟨a, ha, rfl, rfl⟩
        · exact hold i v hv
        · exact hnew a ha
      · rcases answered_asking (after σ n).tree k r with ⟨a, ha, he⟩ | ⟨e, -, he⟩
        · rw [he] at hc'
          cases hc'
          exact ⟨k, rfl, htaken.mono (by omega), hnew a ha⟩
        · rw [he] at hc'
          cases hc'

/-- **Every scene of every schedule has a history.** -/
theorem provenance (n : Nat) : Provenance σ n := by
  induction n with
  | zero => exact ⟨fun i v hv => (by cases hv), fun me c hc => (by cases hc)⟩
  | succ n ih =>
    cases hm : σ n with
    | begin me q => exact ih.begin hm
    | step me => exact ih.step hm
    | answer me r => exact ih.answer hm
    | advance paused => exact ih.same (by rw [after_succ σ hm]; rfl) (by rw [after_succ σ hm]; rfl)
    | shut => exact ih.same (by rw [after_succ σ hm]; rfl) (by rw [after_succ σ hm]; rfl)

/-! ### Tickets of one slot -/

theorem Takes.ticket {n me : Nat} {q : Query} {k : Ticket} (h : Takes σ n me q k) :
    (after σ n).tree.allow q = .ok k.generation ∧ k.key = q.key ∧
      k.slot = ((after σ n).tree.slotFor q.key).1 ∧
      (after σ (n + 1)).tree = ((after σ n).tree.slotFor q.key).2 := by
  have hs := after_succ σ h.step
  have ht := h.then_
  simp only [move, h.before] at hs
  rw [hs, put_call?, if_pos rfl] at ht
  rcases step_start me (after σ n).tree q with ⟨e, -, he⟩ | ⟨g, hg, he⟩
  · rw [he] at ht; cases ht
  · rw [he] at ht hs
    cases ht
    exact ⟨hg, rfl, rfl, by rw [hs]; rfl⟩

theorem taken_succ {n me : Nat} {k : Ticket} (h : Taken σ (n + 1) me k) :
    Taken σ n me k ∨ ∃ q, Takes σ n me q k := by
  obtain ⟨j, q, hj, ht⟩ := h
  rcases Nat.lt_or_ge j n with hjn | hjn
  · exact Or.inl ⟨j, q, hjn, ht⟩
  · have : j = n := by omega
    subst this
    exact Or.inr ⟨q, ht⟩

/-- Every slot has one generation and one question: `origin` tells them for the slots in the cache and
for all tickets that were taken. -/
structure Origin (σ : Nat → Move) (n : Nat) (origin : Nat → Generation × Key) : Prop where
  cached : ∀ p ∈ (after σ n).tree.cache,
    p.2 < (after σ n).tree.slots.length ∧ origin p.2 = ((after σ n).tree.generation, p.1)
  taken : ∀ me k, Taken σ n me k →
    k.slot < (after σ n).tree.slots.length ∧ origin k.slot = (k.generation, k.key)

/-- A move in which no call takes a slot, and which makes none, keeps the origins. -/
theorem Origin.keep {n : Nat} {origin : Nat → Generation × Key} (h : Origin σ n origin)
    (htakes : ∀ me q k, ¬ Takes σ n me q k)
    (hlength : (after σ (n + 1)).tree.slots.length = (after σ n).tree.slots.length)
    (hcache : ∀ p ∈ (after σ (n + 1)).tree.cache, p ∈ (after σ n).tree.cache ∧
      (after σ (n + 1)).tree.generation = (after σ n).tree.generation) :
    Origin σ (n + 1) origin := by
  refine ⟨fun p hp => ?_, fun me k hk => ?_⟩
  · obtain ⟨hp', hg⟩ := hcache p hp
    rw [hlength, hg]
    exact h.cached p hp'
  · rw [hlength]
    rcases taken_succ hk with hk | ⟨q, hk⟩
    · exact h.taken me k hk
    · exact absurd hk (htakes me q k)

theorem Origin.takes {n me : Nat} {q : Query} {k : Ticket} {origin : Nat → Generation × Key}
    (h : Origin σ n origin) (ht : Takes σ n me q k) : ∃ origin', Origin σ (n + 1) origin' := by
  obtain ⟨hg, hkey, hslot, htree⟩ := ht.ticket
  obtain ⟨-, hgen, -⟩ := Tree.allow_ok hg
  -- no other call takes a slot in this move
  have honly : ∀ me' k', Taken σ (n + 1) me' k' → Taken σ n me' k' ∨ k' = k := by
    intro me' k' hk'
    rcases taken_succ hk' with hk' | ⟨q', hk'⟩
    · exact Or.inl hk'
    · right
      have hme : me' = me := by
        have := hk'.step.symm.trans ht.step
        cases this
        rfl
      subst hme
      have := hk'.then_.symm.trans ht.then_
      cases this
      rfl
  rcases Tree.slotFor_cases (after σ n).tree q.key with ⟨hmem, hsame⟩ | ⟨hnew, hcache, hlength⟩
  · rw [hsame] at htree
    refine ⟨origin, fun p hp => ?_, fun me' k' hk' => ?_⟩
    · rw [htree] at hp ⊢
      exact h.cached p hp
    · rw [htree]
      rcases honly me' k' hk' with hk' | rfl
      · exact h.taken me' k' hk'
      · have hc := h.cached _ hmem
        rw [hslot, hgen, hkey]
        exact hc
  · have halike := (after σ n).tree.alike_slotFor q.key
    refine ⟨Function.update origin (after σ n).tree.slots.length (k.generation, k.key),
      fun p hp => ?_, fun me' k' hk' => ?_⟩
    · rw [htree, hcache] at hp
      rw [htree, hlength, halike.generation]
      rcases List.mem_append.mp hp with hp | hp
      · obtain ⟨hlt, ho⟩ := h.cached p hp
        refine ⟨by omega, ?_⟩
        rw [Function.update_of_ne (by omega), ho]
      · rw [List.mem_singleton] at hp
        subst hp
        refine ⟨Nat.lt_succ_self _, ?_⟩
        rw [Function.update_self, hgen, hkey]
    · rw [htree, hlength]
      rcases honly me' k' hk' with hk' | rfl
      · obtain ⟨hlt, ho⟩ := h.taken me' k' hk'
        refine ⟨by omega, ?_⟩
        rw [Function.update_of_ne (by omega), ho]
      · rw [hslot, hnew]
        exact ⟨Nat.lt_succ_self _, Function.update_self ..⟩

/-- A move of a call at another place than its start takes no slot. -/
theorem not_takes {n : Nat} (h : ∀ me q, σ n = .step me → (after σ n).call? me ≠ some (.start q)) :
    ∀ me q k, ¬ Takes σ n me q k :=
  fun me q _ ht => h me q ht.step ht.before

theorem origin_step {n me : Nat} {origin : Nat → Generation × Key} (h : Origin σ n origin)
    (hm : σ n = .step me) : ∃ origin', Origin σ (n + 1) origin' := by
  have hs := after_succ σ hm
  unfold move at hs
  simp only at hs
  -- unless the call is at its start, the slots stay the same
  have hkeep : ∀ tree, (after σ n).tree.SameSlots tree → (after σ (n + 1)).tree = tree →
      (∀ q, (after σ n).call? me ≠ some (.start q)) → ∃ origin', Origin σ (n + 1) origin' := by
    intro tree hsame htree hstart
    refine ⟨origin, h.keep (not_takes fun i q hi => ?_) ?_ fun p hp => ?_⟩
    · rw [hm] at hi
      cases hi
      exact hstart q
    · rw [htree, hsame.length]
    · rw [htree, hsame.cache] at hp
      exact ⟨hp, by rw [htree, hsame.generation]⟩
  split at hs
  · next hnone =>
    exact hkeep _ (Tree.SameSlots.refl _) (by rw [hs]) fun q hq => by rw [hnone] at hq; cases hq
  · next c hc =>
    cases c with
    | start q =>
      rcases step_start me (after σ n).tree q with ⟨e, -, he⟩ | ⟨g, -, he⟩
      · rw [he] at hs
        refine ⟨origin, h.keep (fun i q' k ht => ?_) (by rw [hs]; rfl) fun p hp => ?_⟩
        · have hi := ht.step.symm.trans hm
          cases hi
          have := ht.then_
          rw [hs, put_call?, if_pos rfl] at this
          cases this
        · rw [hs] at hp
          exact ⟨hp, by rw [hs]; rfl⟩
      · have hj : (after σ (n + 1)).call? me =
            some (.joined ⟨g, q.key, ((after σ n).tree.slotFor q.key).1⟩) := by
          rw [hs, put_call?, if_pos rfl, he]
          rfl
        exact h.takes ⟨hm, hc, hj⟩
    | joined k =>
      have hstart : ∀ q, (after σ n).call? me ≠ some (.start q) := by
        intro q hq; rw [hc] at hq; cases hq
      rcases step_joined me (after σ n).tree k with ⟨v, -, he⟩ | he | he
      · exact hkeep _ (Tree.SameSlots.refl _) (by rw [hs, he]; rfl) hstart
      · exact hkeep _ (Tree.sameSlots_acquire _ me k) (by rw [hs, he]; rfl) hstart
      · exact hkeep _ (Tree.sameSlots_acquire _ me k) (by rw [hs, he]; rfl) hstart
    | asking k =>
      exact hkeep _ (Tree.SameSlots.refl _) (by rw [hs]; rfl) fun q hq => by rw [hc] at hq; cases hq
    | check g v =>
      exact hkeep _ (Tree.SameSlots.refl _) (by rw [hs]; rfl) fun q hq => by rw [hc] at hq; cases hq

theorem exists_origin (n : Nat) : ∃ origin, Origin σ n origin := by
  induction n with
  | zero =>
    refine ⟨fun _ => (.first, .stack 0), fun p hp => (by cases hp), fun me k hk => ?_⟩
    obtain ⟨j, q, hj, -⟩ := hk
    omega
  | succ n ih =>
    obtain ⟨origin, h⟩ := ih
    -- a move that is no step takes no slot
    have hno : (∀ me, σ n ≠ .step me) → ∀ me q k, ¬ Takes σ n me q k :=
      fun hm => not_takes fun me q hs => absurd hs (hm me)
    cases hm : σ n with
    | step me => exact origin_step h hm
    | begin me q =>
      have hs := after_succ σ hm
      have ht : (after σ (n + 1)).tree = (after σ n).tree := by
        rw [hs]; unfold move; simp only; split <;> rfl
      exact ⟨origin, h.keep (hno fun i hi => by rw [hm] at hi; cases hi) (by rw [ht])
        fun p hp => ⟨ht ▸ hp, by rw [ht]⟩⟩
    | answer me r =>
      have hs := after_succ σ hm
      have ht : (after σ n).tree.SameSlots (after σ (n + 1)).tree := by
        rw [hs]
        unfold move
        simp only
        split
        · exact Tree.SameSlots.refl _
        · exact sameSlots_answered _ r _
      exact ⟨origin, h.keep (hno fun i hi => by rw [hm] at hi; cases hi) ht.length
        fun p hp => ⟨ht.cache ▸ hp, ht.generation⟩⟩
    | advance paused =>
      have hs := after_succ σ hm
      refine ⟨origin, h.keep (hno fun i hi => by rw [hm] at hi; cases hi) (by rw [hs]; rfl)
        fun p hp => ?_⟩
      rw [hs] at hp
      cases hp
    | shut =>
      have hs := after_succ σ hm
      exact ⟨origin, h.keep (hno fun i hi => by rw [hm] at hi; cases hi) (by rw [hs]; rfl)
        fun p hp => ⟨by rw [hs] at hp; exact hp, by rw [hs]; rfl⟩⟩

/-- **Tickets of one slot were taken in one generation, for one question.** -/
theorem tickets_agree {n me me' : Nat} {k k' : Ticket} (h : Taken σ n me k) (h' : Taken σ n me' k')
    (hs : k.slot = k'.slot) : k.generation = k'.generation ∧ k.key = k'.key := by
  obtain ⟨origin, ho⟩ : ∃ origin, Origin σ n origin := exists_origin n
  have h1 := (ho.taken me k h).2
  have h2 := (ho.taken me' k' h').2
  rw [hs, h2] at h1
  exact ⟨(congrArg Prod.fst h1).symm, (congrArg Prod.snd h1).symm⟩

end DebugHost.Inspection
