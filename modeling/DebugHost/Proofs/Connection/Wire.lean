import DebugHost.Proofs.Connection.Numbers

/-! # The order of numbers on the wire

Whoever sends a message takes the next number in one move, and hands the message over to the writer in
a later one: a call its request, and the reader its refusal of a request of the adapter. The traffic of
a wire is like any other but for the refusals (`Wire.read`, `Wire.refuse`), and all that is done in
other traffic can be done in it (`leads_move`).

A number is in the hand of its sender from when it is taken until its message is handed over, and there
are four things that a move can do to hands (`Deed`). So two messages are written in the order of their
numbers, unless both numbers were in hands at one moment (`InOrder`). If they are, either of them may
be written first (`handsOver_of_hand`, `leads_written`). -/

namespace DebugHost

open DebugHost.Json

/-- Traffic in which the reader takes the number of a refusal in one move, and hands the refusal over
in another. -/
structure Wire where
  traffic : Traffic
  /-- The refusal that the reader has a number for: the number, and the request of the adapter. -/
  refusal : Option (Int × Request) := none

namespace Wire

open Traffic (Call Goes Queued)

/-! ### Moves -/

/-- What may happen next. -/
inductive Move where
  /-- What happens in all traffic. -/
  | traffic (m : Traffic.Move)
  /-- The reader hands its refusal over. -/
  | refuse

/-- Whether a move is one of the reader. -/
def isReading : Traffic.Move → Bool
  | .read | .failRead _ | .stopRead | .goOn => true
  | _ => false

/-- The request of the adapter that the reader comes to next, and the stream behind it. -/
def heard? (x : Traffic) : Option (Request × Frame.Reader) :=
  match x.intake, x.link.inbound.next with
  | .reading, (some (.message (.request q)), r) => some (q, r)
  | _, _ => none

/-- The reader reads. For a request it takes a number. -/
def read (w : Wire) : Wire :=
  match heard? w.traffic with
  | some (q, r) =>
    ⟨{ (w.traffic.withInbound r).withConnection w.traffic.connection.takeSeq.2 with
        received := w.traffic.received ++ [.request q] },
      some (w.traffic.connection.nextSeq, q)⟩
  | none => { w with traffic := w.traffic.read }

/-- A message is handed to the writer. -/
def handOver (x : Traffic) (m : Message) : Traffic :=
  { x.withConnection (x.connection.post m) with posted := x.posted ++ [m] }

/-- The reader hands its refusal over. If there is no writer any more, the refusal is lost. -/
def refuse (w : Wire) : Wire :=
  match w.refusal with
  | none => w
  | some (seq, q) =>
    if w.traffic.outlet = .ended then ⟨w.traffic, none⟩
    else ⟨handOver w.traffic (.response (.refusing seq q (Connection.refusal q))), none⟩

/-- The wire after a move. The reader does nothing else while it has a refusal to hand over. -/
def move (w : Wire) : Move → Wire
  | .refuse => w.refuse
  | .traffic .read => if w.refusal.isSome then w else w.read
  | .traffic m =>
    if w.refusal.isSome && isReading m then w else { w with traffic := w.traffic.move m }

/-- A wire that nobody has used. -/
def start (timeout : Duration) : Wire := ⟨.start timeout, none⟩

/-- The wire after the first `n` moves of a schedule. -/
def after (timeout : Duration) (σ : Nat → Move) (n : Nat) : Wire := reached move (start timeout) σ n

theorem after_succ (timeout : Duration) (σ : Nat → Move) (n : Nat) :
    after timeout σ (n + 1) = (after timeout σ n).move (σ n) := rfl

/-- The messages that were written, oldest first. -/
abbrev written (w : Wire) : List Message := w.traffic.link.written

/-- The messages that wait to be written. -/
abbrev queue (w : Wire) : List Message := w.traffic.connection.queue

/-- The number that is taken next. -/
abbrev next (w : Wire) : Int := w.traffic.connection.nextSeq

variable {w v : Wire} {x : Traffic}

theorem heard?_eq_some {q : Request} {r : Frame.Reader} (h : heard? x = some (q, r)) :
    x.intake = .reading ∧ x.link.inbound.next = (some (.message (.request q)), r) := by
  unfold heard? at h
  split at h
  · next q' r' hi hn =>
    cases h
    exact ⟨hi, hn⟩
  · cases h

/-- **All traffic is on a wire**: what a move of the traffic does, moves of the wire do. -/
theorem leads_move (x : Traffic) (m : Traffic.Move) : Leads move ⟨x, none⟩ ⟨x.move m, none⟩ := by
  have hother : move ⟨x, none⟩ (.traffic m) = ⟨x.move m, none⟩ →
      Leads move ⟨x, none⟩ ⟨x.move m, none⟩ := fun h => h ▸ .one _ _
  cases m with
  | read =>
    cases h : heard? x with
    | none =>
      refine hother ?_
      show read ⟨x, none⟩ = _
      rw [read, h]
      rfl
    | some found =>
      -- The number is taken in a first move, and the refusal handed over in a second one.
      obtain ⟨q, r⟩ := found
      obtain ⟨hi, hn⟩ := heard?_eq_some h
      have htwo : move (move ⟨x, none⟩ (.traffic .read)) .refuse = ⟨x.move .read, none⟩ := by
        show refuse (read ⟨x, none⟩) = ⟨x.read, none⟩
        rw [read, h, Traffic.read, hi, hn]
        show (if x.outlet = .ended then _ else _) =
          (⟨if x.outlet = .ended then _ else _, none⟩ : Wire)
        by_cases ho : x.outlet = .ended
        · rw [if_pos ho, if_pos ho]
          rfl
        · rw [if_neg ho, if_neg ho]
          rfl
      rw [← htwo]
      exact .tail _ (.one _ _)
  | _ => exact hother rfl

/-! ### Numbers in hand -/

/-- Who sends messages. -/
inductive Sender where
  | call (me : Nat)
  | reader
deriving DecidableEq

/-- The number that a sender has taken and has not sent a message with. -/
def hand (w : Wire) : Sender → Option Int
  | .call me => w.traffic.unused? me
  | .reader => w.refusal.map (·.1)

/-- **All that a move can do to numbers.** -/
inductive Deed (w v : Wire) : Prop where
  | keeps (hnext : v.next = w.next) (hhand : v.hand = w.hand)
    (hposted : v.traffic.posted = w.traffic.posted)
  /-- A sender takes the next number. -/
  | takes (p : Sender) (hnone : w.hand p = none) (hnext : v.next = w.next + 1)
    (hhand : v.hand = Function.update w.hand p (some w.next))
    (hposted : v.traffic.posted = w.traffic.posted)
  /-- A sender hands a message with its number to the writer. -/
  | posts (p : Sender) (m : Message) (hsome : w.hand p = some m.seq) (hnext : v.next = w.next)
    (hhand : v.hand = Function.update w.hand p none)
    (hposted : v.traffic.posted = w.traffic.posted ++ [m])
  /-- A sender finds no writer, and its number is not used. -/
  | loses (p : Sender) (hnext : v.next = w.next) (hhand : v.hand = Function.update w.hand p none)
    (hposted : v.traffic.posted = w.traffic.posted)

/-- What a move of the call `me` makes of the hands. -/
theorem hand_put (x : Traffic) (refusal : Option (Int × Request)) (me : Nat) (c : Call)
    (conn : Connection) (ms : List Message) :
    hand ⟨x.put me c conn ms, refusal⟩ =
      Function.update (hand ⟨x, refusal⟩) (.call me) c.unused? := by
  funext p
  cases p with
  | reader => rfl
  | call i =>
    show Option.bind ((x.put me c conn ms).calls i) Call.unused? = _
    rw [Traffic.put_bind, Function.update_apply]
    simp only [Sender.call.injEq]
    rfl

theorem deed_call {refusal : Option (Int × Request)} {me : Nat} {o : Option Call} {c' : Call}
    {conn : Connection} {ms : List Message} (hme : x.calls me = o) (h : Goes x o c' conn ms) :
    Deed ⟨x, refusal⟩ ⟨x.put me c' conn ms, refusal⟩ := by
  have hmine : hand ⟨x, refusal⟩ (.call me) = o.bind Call.unused? := by
    rw [← hme]
    rfl
  have hkeeps : conn.nextSeq = x.connection.nextSeq → c'.unused? = o.bind Call.unused? → ms = [] →
      Deed ⟨x, refusal⟩ ⟨x.put me c' conn ms, refusal⟩ := by
    intro hnext hunused hms
    refine .keeps hnext ?_ ((congrArg (x.posted ++ ·) hms).trans (List.append_nil _))
    rw [hand_put, hunused, ← hmine, Function.update_eq_self]
  have hhand := hand_put x refusal me c' conn ms
  cases h with
  | asked => exact hkeeps rfl rfl rfl
  | waits => exact hkeeps rfl rfl rfl
  | dropped => exact hkeeps rfl rfl rfl
  | steps h =>
    cases h with
    | numbered => exact .takes (.call me) hmine rfl hhand (List.append_nil _)
    | sent ho => exact .posts (.call me) (.request ⟨_, _, _⟩) hmine rfl hhand rfl
    | unsent ho => exact .loses (.call me) rfl hhand (List.append_nil _)
    | _ => exact hkeeps rfl rfl rfl

/-- Nothing is done to numbers where calls and messages stay. -/
theorem Deed.of_same {refusal : Option (Int × Request)} {y : Traffic}
    (hnext : y.connection.nextSeq = x.connection.nextSeq) (hcalls : y.calls = x.calls)
    (hposted : y.posted = x.posted) : Deed ⟨x, refusal⟩ ⟨y, refusal⟩ := by
  refine .keeps hnext ?_ hposted
  funext p
  cases p with
  | reader => rfl
  | call me =>
    show (y.calls me).bind _ = (x.calls me).bind _
    rw [hcalls]

/-- Only by a look at the stream something is taken in. -/
theorem received_move {m : Traffic.Move} (hm : m ≠ .read) : (x.move m).received = x.received := by
  cases m with
  | read => exact absurd rfl hm
  | ask me command arguments =>
    show (x.ask me command arguments).received = _
    unfold Traffic.ask
    split <;> rfl
  | step me =>
    show (x.advance me).received = _
    unfold Traffic.advance
    split <;> rfl
  | wait me =>
    show (x.await me).received = _
    unfold Traffic.await
    split <;> rfl
  | drop me =>
    show (x.drop me).received = _
    unfold Traffic.drop
    split <;> rfl
  | cancel =>
    show x.cancel.received = _
    unfold Traffic.cancel
    split <;> rfl
  | write =>
    show (x.write none).received = _
    unfold Traffic.write
    split <;> rfl
  | failWrite text =>
    show (x.write (some text)).received = _
    unfold Traffic.write
    split <;> rfl
  | stopWrite =>
    show x.stopWrite.received = _
    unfold Traffic.stopWrite
    split <;> try split
    all_goals rfl
  | failRead text =>
    show (x.failRead text).received = _
    unfold Traffic.failRead
    split <;> rfl
  | stopRead =>
    show x.stopRead.received = _
    unfold Traffic.stopRead
    split <;> try split
    all_goals rfl
  | goOn =>
    show x.goOn.received = _
    unfold Traffic.goOn
    split <;> try split
    all_goals rfl
  | arrive chunk =>
    show (x.arrive chunk).received = _
    unfold Traffic.arrive
    split <;> rfl
  | _ => rfl

/-- In the traffic, what takes no message in does to numbers what one call does. -/
theorem deed_change {refusal : Option (Int × Request)} {y : Traffic} (h : Traffic.Change x y)
    (hreceived : y.received = x.received) : Deed ⟨x, refusal⟩ ⟨y, refusal⟩ := by
  cases h with
  | call me hme h => exact deed_call hme h
  | takes hi h =>
    cases h with
    | nothing r hn => exact .of_same rfl rfl rfl
    | last o r reason hn ho => exact .of_same rfl rfl rfl
    | message m hn h =>
      rw [h.received] at hreceived
      simp at hreceived
  | _ => exact .of_same rfl rfl rfl

/-- What is taken in does nothing to numbers if it is no request. -/
theorem deed_takes {refusal : Option (Int × Request)} {y : Traffic} (hi : x.intake = .reading)
    (h : Traffic.Takes x y) (hheard : heard? x = none) : Deed ⟨x, refusal⟩ ⟨y, refusal⟩ := by
  cases h with
  | nothing r hn => exact .of_same rfl rfl rfl
  | last o r reason hn ho => exact .of_same rfl rfl rfl
  | message m hn h =>
    have hrequest : ∀ q, m ≠ .request q := by
      rintro q rfl
      simp [heard?, hi, hn] at hheard
    cases h.handles with
    | completes r hin hconn hi hcompleted hreported hposted =>
      exact .of_same (congrArg Connection.nextSeq hconn :) h.calls hposted
    | orphan r hout hconn hi hcompleted hreported hposted =>
      exact .of_same (congrArg Connection.nextSeq hconn :) h.calls hposted
    | event e hconn hi hcompleted hreported hposted =>
      exact .of_same (congrArg Connection.nextSeq hconn :) h.calls hposted
    | refused q => exact absurd rfl (hrequest q)
    | unheard q => exact absurd rfl (hrequest q)

theorem deed_read (hfree : w.refusal = none) : Deed w w.read := by
  unfold read
  cases hheard : heard? w.traffic with
  | some found =>
    refine .takes .reader (by rw [hand, hfree]; rfl) rfl ?_ rfl
    funext p
    cases p <;> rfl
  | none =>
    cases hi : w.traffic.intake with
    | reading => exact deed_takes hi (Traffic.takes_read hi) hheard
    | _ =>
      simp only [Traffic.read, hi]
      exact .of_same rfl rfl rfl

theorem deed_refuse (w : Wire) : Deed w w.refuse := by
  obtain ⟨x, refusal⟩ := w
  cases refusal with
  | none => exact .of_same rfl rfl rfl
  | some found =>
    obtain ⟨seq, q⟩ := found
    have hhand : ∀ y : Traffic, y.calls = x.calls →
        hand ⟨y, none⟩ = Function.update (hand ⟨x, some (seq, q)⟩) .reader none := by
      intro y hcalls
      funext p
      cases p with
      | reader => rfl
      | call me =>
        show (y.calls me).bind _ = (x.calls me).bind _
        rw [hcalls]
    simp only [refuse]
    split
    · exact .loses .reader rfl (hhand x rfl) rfl
    · exact .posts .reader (.response (.refusing seq q (Connection.refusal q))) rfl rfl
        (hhand _ rfl) rfl

theorem deed_move (w : Wire) (m : Move) : Deed w (w.move m) := by
  have htraffic : ∀ m : Traffic.Move, m ≠ .read →
      Deed w (if w.refusal.isSome && isReading m then w
        else { w with traffic := w.traffic.move m }) := by
    intro m hm
    split
    · exact .of_same rfl rfl rfl
    · exact deed_change (Traffic.change_move w.traffic m) (received_move hm)
  cases m with
  | refuse => exact deed_refuse w
  | traffic m =>
    cases m with
    | read =>
      show Deed w (if w.refusal.isSome then w else w.read)
      split
      · exact .of_same rfl rfl rfl
      · next hfree => exact deed_read (Option.not_isSome_iff_eq_none.mp hfree)
    | _ => exact htraffic _ (by simp)

/-! ### Numbers are used once -/

/-- All numbers in hands and on messages are below the next one, and are used once. -/
structure Numbered (next : Int) (hand : Sender → Option Int) (posted : List Message) : Prop where
  below : ∀ m ∈ posted, m.seq < next
  held : ∀ p s, hand p = some s → s < next
  own : ∀ p q s, hand p = some s → hand q = some s → p = q
  unused : ∀ p s, hand p = some s → ∀ m ∈ posted, m.seq ≠ s
  distinct : (posted.map Message.seq).Nodup

variable {next : Int} {hand : Sender → Option Int} {posted : List Message}

/-- What is in a hand once the one of `p` has changed. -/
theorem update_hand {p q : Sender} {o : Option Int} {s : Int}
    (h : Function.update hand p o q = some s) :
    (q = p ∧ o = some s) ∨ (q ≠ p ∧ hand q = some s) := by
  rw [Function.update_apply] at h
  split at h
  · next hq => exact .inl ⟨hq, h⟩
  · next hq => exact .inr ⟨hq, h⟩

theorem Numbered.takes (h : Numbered next hand posted) (p : Sender) :
    Numbered (next + 1) (Function.update hand p (some next)) posted where
  below m hm := Int.lt_trans (h.below m hm) (Int.lt_succ next)
  held q s hs := by
    rcases update_hand hs with ⟨-, heq⟩ | ⟨-, hs⟩
    · cases heq
      exact Int.lt_succ next
    · exact Int.lt_trans (h.held q s hs) (Int.lt_succ next)
  own q q' s hs hs' := by
    rcases update_hand hs with ⟨hq, heq⟩ | ⟨-, hs⟩ <;>
      rcases update_hand hs' with ⟨hq', heq'⟩ | ⟨-, hs'⟩
    · rw [hq, hq']
    · cases heq
      exact absurd (h.held q' _ hs') (Int.lt_irrefl _)
    · cases heq'
      exact absurd (h.held q _ hs) (Int.lt_irrefl _)
    · exact h.own q q' s hs hs'
  unused q s hs m hm := by
    rcases update_hand hs with ⟨-, heq⟩ | ⟨-, hs⟩
    · cases heq
      exact Int.ne_of_lt (h.below m hm)
    · exact h.unused q s hs m hm
  distinct := h.distinct

theorem Numbered.loses (h : Numbered next hand posted) (p : Sender) :
    Numbered next (Function.update hand p none) posted := by
  have hold : ∀ q s, Function.update hand p none q = some s → hand q = some s := by
    intro q s hs
    rcases update_hand hs with ⟨-, heq⟩ | ⟨-, hs⟩
    · cases heq
    · exact hs
  exact {
    below := h.below
    held := fun q s hs => h.held q s (hold q s hs)
    own := fun q q' s hs hs' => h.own q q' s (hold q s hs) (hold q' s hs')
    unused := fun q s hs => h.unused q s (hold q s hs)
    distinct := h.distinct }

theorem Numbered.posts (h : Numbered next hand posted) {p : Sender} {m : Message}
    (hp : hand p = some m.seq) :
    Numbered next (Function.update hand p none) (posted ++ [m]) where
  below m' hm' := by
    rcases List.mem_append.mp hm' with hm' | hm'
    · exact h.below m' hm'
    · rw [List.mem_singleton.mp hm']
      exact h.held p _ hp
  held := (h.loses p).held
  own := (h.loses p).own
  unused q s hs m' hm' := by
    rcases update_hand hs with ⟨-, heq⟩ | ⟨hq, hs⟩
    · cases heq
    · rcases List.mem_append.mp hm' with hm' | hm'
      · exact h.unused q s hs m' hm'
      · rw [List.mem_singleton.mp hm']
        rintro rfl
        exact hq (h.own q p _ hs hp)
  distinct := by
    rw [List.map_append, List.nodup_append]
    refine ⟨h.distinct, List.nodup_singleton _, ?_⟩
    intro s hs t ht
    obtain ⟨m', hm', rfl⟩ := List.mem_map.mp hs
    rw [List.mem_singleton.mp ht]
    exact h.unused p _ hp m' hm'

theorem Numbered.deed (h : Numbered w.next w.hand w.traffic.posted) (hdeed : Deed w v) :
    Numbered v.next v.hand v.traffic.posted := by
  cases hdeed with
  | keeps hnext hhand hposted => rwa [hnext, hhand, hposted]
  | takes p hnone hnext hhand hposted =>
    rw [hnext, hhand, hposted]
    exact h.takes p
  | posts p m hsome hnext hhand hposted =>
    rw [hnext, hhand, hposted]
    exact h.posts hsome
  | loses p hnext hhand hposted =>
    rw [hnext, hhand, hposted]
    exact h.loses p

theorem numbered_after (timeout : Duration) (σ : Nat → Move) (n : Nat) :
    Numbered (after timeout σ n).next (after timeout σ n).hand (after timeout σ n).traffic.posted := by
  induction n with
  | zero =>
    have hnone : ∀ p s, (after timeout σ 0).hand p ≠ some s := by
      intro p s h
      cases p <;> cases h
    exact {
      below := List.forall_mem_nil _
      held := fun p s h => absurd h (hnone p s)
      own := fun p q s h => absurd h (hnone p s)
      unused := fun p s h => absurd h (hnone p s)
      distinct := List.nodup_nil }
  | succ n ih => exact ih.deed (deed_move _ (σ n))

/-! ### The order of numbers -/

/-- Whether two numbers have been in hands at one moment, in the first `n` moves of a schedule. -/
def Together (timeout : Duration) (σ : Nat → Move) (n : Nat) (s t : Int) : Prop :=
  ∃ k ≤ n, ∃ p q, p ≠ q ∧ (after timeout σ k).hand p = some s ∧ (after timeout σ k).hand q = some t

variable {timeout : Duration} {σ : Nat → Move} {n : Nat} {s t : Int}

theorem Together.later (h : Together timeout σ n s t) : Together timeout σ (n + 1) s t := by
  obtain ⟨k, hk, h⟩ := h
  exact ⟨k, Nat.le_succ_of_le hk, h⟩

/-- Numbers are used in their order, but for those that have been in hands at one moment. -/
structure InOrder (timeout : Duration) (σ : Nat → Move) (n : Nat) : Prop where
  posted : (after timeout σ n).traffic.posted.Pairwise fun a b =>
    a.seq < b.seq ∨ Together timeout σ n a.seq b.seq
  held : ∀ a ∈ (after timeout σ n).traffic.posted, ∀ p s, (after timeout σ n).hand p = some s →
    a.seq < s ∨ Together timeout σ n a.seq s

theorem InOrder.step (h : InOrder timeout σ n) : InOrder timeout σ (n + 1) := by
  have hnumbered := numbered_after timeout σ n
  have hposted : (after timeout σ n).traffic.posted.Pairwise fun a b =>
      a.seq < b.seq ∨ Together timeout σ (n + 1) a.seq b.seq :=
    h.posted.imp fun h => h.imp_right .later
  have hheld : ∀ a ∈ (after timeout σ n).traffic.posted, ∀ p s, (after timeout σ n).hand p = some s →
      a.seq < s ∨ Together timeout σ (n + 1) a.seq s :=
    fun a ha p s hs => (h.held a ha p s hs).imp_right .later
  cases deed_move (after timeout σ n) (σ n) with
  | keeps hnext hhand hp => exact ⟨by rwa [after_succ, hp], by rwa [after_succ, hhand, hp]⟩
  | takes p hnone hnext hhand hp =>
    refine ⟨by rwa [after_succ, hp], ?_⟩
    rw [after_succ, hhand, hp]
    intro a ha q s hs
    rcases update_hand hs with ⟨-, heq⟩ | ⟨-, hs⟩
    · cases heq
      exact .inl (hnumbered.below a ha)
    · exact hheld a ha q s hs
  | posts p m hsome hnext hhand hp =>
    constructor
    · rw [after_succ, hp]
      refine List.pairwise_append.mpr ⟨hposted, List.pairwise_singleton _ _, fun a ha b hb => ?_⟩
      rw [List.mem_singleton.mp hb]
      exact hheld a ha p m.seq hsome
    · rw [after_succ, hhand, hp]
      intro a ha q s hs
      rcases update_hand hs with ⟨-, heq⟩ | ⟨hq, hs⟩
      · cases heq
      · rcases List.mem_append.mp ha with ha | ha
        · exact hheld a ha q s hs
        · -- The number that is used now, and one that is still in a hand.
          rw [List.mem_singleton.mp ha]
          exact .inr ⟨n, Nat.le_succ n, p, q, Ne.symm hq, hsome, hs⟩
  | loses p hnext hhand hp =>
    refine ⟨by rwa [after_succ, hp], ?_⟩
    rw [after_succ, hhand, hp]
    intro a ha q s hs
    rcases update_hand hs with ⟨-, heq⟩ | ⟨-, hs⟩
    · cases heq
    · exact hheld a ha q s hs

theorem inOrder_after (timeout : Duration) (σ : Nat → Move) (n : Nat) : InOrder timeout σ n := by
  induction n with
  | zero => exact ⟨.nil, fun a ha => by cases ha⟩
  | succ n ih => exact ih.step

/-! ### What is written -/

theorem queued_move (h : Queued w.traffic) (m : Move) : Queued (w.move m).traffic := by
  have htraffic : ∀ m : Traffic.Move, Queued
      (if w.refusal.isSome && isReading m then w
        else { w with traffic := w.traffic.move m }).traffic := by
    intro m
    split
    · exact h
    · exact h.change (Traffic.change_move w.traffic m)
  cases m with
  | refuse =>
    show Queued w.refuse.traffic
    unfold refuse
    split
    · exact h
    · split
      · exact h
      · exact h.post [_] rfl rfl rfl
  | traffic m =>
    cases m with
    | read =>
      show Queued (if w.refusal.isSome then w else w.read).traffic
      split
      · exact h
      · unfold read
        split
        · exact h.of_same rfl rfl rfl
        · exact h.change (Traffic.change_read w.traffic)
    | _ => exact htraffic _

theorem queued_after (timeout : Duration) (σ : Nat → Move) (n : Nat) :
    Queued (after timeout σ n).traffic := by
  induction n with
  | zero => exact ⟨[], rfl, List.Sublist.refl _⟩
  | succ n ih => exact queued_move ih (σ n)

/-! ### Either may come first -/

/-- What it takes to come from `w` to `v`, where `p` has handed the message `m` over. -/
structure HandsOver (p : Sender) (m : Message) (w v : Wire) : Prop where
  leads : Leads move w v
  queue : v.queue = w.queue ++ [m]
  written : v.written = w.written
  outlet : v.traffic.outlet = w.traffic.outlet
  others : ∀ q, q ≠ p → v.hand q = w.hand q

theorem handsOver_entered {me : Nat} {command : String} {arguments : Value}
    (hme : w.traffic.calls me = some (.entered s command arguments))
    (ho : w.traffic.outlet ≠ .ended) :
    ∃ v, HandsOver (.call me) (.request ⟨s, command, arguments⟩) w v := by
  have hmove : w.move (.traffic (.step me)) =
      ⟨w.traffic.put me (.sent ⟨s, command, none⟩)
        (w.traffic.connection.post (.request ⟨s, command, arguments⟩))
        [.request ⟨s, command, arguments⟩], w.refusal⟩ := by
    simp only [move, isReading, Bool.and_false, Bool.false_eq_true, if_false, Traffic.move,
      Traffic.advance, hme, Traffic.step, if_neg ho]
  have hleads : Leads move w (w.move (.traffic (.step me))) := .one _ _
  rw [hmove] at hleads
  refine ⟨_, hleads, rfl, rfl, rfl, fun q hq => ?_⟩
  rw [hand_put, Function.update_of_ne hq]

theorem handsOver_numbered {me : Nat} {command : String} {arguments : Value}
    (hme : w.traffic.calls me = some (.numbered s command arguments))
    (ho : w.traffic.outlet ≠ .ended) :
    ∃ v, HandsOver (.call me) (.request ⟨s, command, arguments⟩) w v := by
  have hmove : w.move (.traffic (.step me)) =
      ⟨w.traffic.put me (.entered s command arguments) (w.traffic.connection.expect s) [],
        w.refusal⟩ := by
    simp only [move, isReading, Bool.and_false, Bool.false_eq_true, if_false, Traffic.move,
      Traffic.advance, hme, Traffic.step]
  have hentered : (w.move (.traffic (.step me))).traffic.calls me =
      some (.entered s command arguments) := by
    rw [hmove]
    exact Function.update_self ..
  obtain ⟨v, hv⟩ := handsOver_entered hentered (by rw [hmove]; exact ho)
  have hothers : ∀ q, q ≠ .call me → (w.move (.traffic (.step me))).hand q = w.hand q := by
    intro q hq
    rw [hmove, hand_put, Function.update_of_ne hq]
  refine ⟨v, (Leads.one _ _).trans hv.leads, ?_, ?_, ?_,
    fun q hq => (hv.others q hq).trans (hothers q hq)⟩
  · rw [hv.queue, hmove]; rfl
  · rw [hv.written, hmove]; rfl
  · rw [hv.outlet, hmove]; rfl

/-- **A number in a hand can be used at once**, as long as there is a writer. -/
theorem handsOver_of_hand {p : Sender} (hs : w.hand p = some s) (ho : w.traffic.outlet ≠ .ended) :
    ∃ v m, m.seq = s ∧ HandsOver p m w v := by
  cases p with
  | reader =>
    obtain ⟨⟨seq, q⟩, hrefusal, rfl⟩ := Option.map_eq_some_iff.mp hs
    have hmove : w.move .refuse =
        ⟨handOver w.traffic (.response (.refusing seq q (Connection.refusal q))), none⟩ := by
      simp only [move, refuse, hrefusal, if_neg ho]
    have hleads : Leads move w (w.move .refuse) := .one _ _
    rw [hmove] at hleads
    refine ⟨_, .response (.refusing seq q (Connection.refusal q)), rfl, hleads, rfl, rfl, rfl,
      fun q' hq => ?_⟩
    cases q' with
    | reader => exact absurd rfl hq
    | call me => rfl
  | call me =>
    obtain ⟨c, hc, hunused⟩ := Option.bind_eq_some_iff.mp hs
    cases c with
    | numbered seq command arguments =>
      cases hunused
      obtain ⟨v, hv⟩ := handsOver_numbered hc ho
      exact ⟨v, _, rfl, hv⟩
    | entered seq command arguments =>
      cases hunused
      obtain ⟨v, hv⟩ := handsOver_entered hc ho
      exact ⟨v, _, rfl, hv⟩
    | _ => cases hunused

/-- The writer can write all that waits. -/
theorem leads_written (ho : w.traffic.outlet = .writing) :
    ∃ v, Leads move w v ∧ v.written = w.written ++ w.queue := by
  induction hq : w.queue generalizing w with
  | nil => exact ⟨w, .refl, (List.append_nil _).symm⟩
  | cons m rest ih =>
    have hmove : w.move (.traffic .write) = { w with traffic := w.traffic.write none } := by
      simp only [move, isReading, Bool.and_false, Bool.false_eq_true, if_false, Traffic.move]
    have hwrite : (w.traffic.write none).outlet = .writing ∧
        (w.traffic.write none).connection.queue = rest ∧
          (w.traffic.write none).link.written = w.written ++ [m] := by
      unfold Traffic.write
      split
      · next hwriting hqueue =>
        cases hq.symm.trans hqueue
        exact ⟨ho, rfl, rfl⟩
      · next hnot => exact absurd hq (hnot m rest ho)
    have hone : Leads move w (w.move (.traffic .write)) := .one _ _
    rw [hmove] at hone
    obtain ⟨v, hleads, hv⟩ := @ih ⟨w.traffic.write none, w.refusal⟩ hwrite.1 hwrite.2.1
    refine ⟨v, hone.trans hleads, ?_⟩
    rw [hv, written, hwrite.2.2, List.append_assoc]
    rfl

/-! ### The order on the wire -/

/-- What holds of the numbers of the messages that were written in the first `n` moves. -/
structure Sequenced (timeout : Duration) (σ : Nat → Move) (n : Nat) : Prop where
  /-- No number is written twice. -/
  distinct : ((after timeout σ n).written.map Message.seq).Nodup
  /-- Messages are written in the order in which they were handed over. -/
  handed : (after timeout σ n).written.Sublist (after timeout σ n).traffic.posted
  /-- They are written in the order of their numbers, but for numbers that were in hands at one
  moment. -/
  inOrder : (after timeout σ n).written.Pairwise fun a b =>
    a.seq < b.seq ∨ Together timeout σ n a.seq b.seq
  /-- Of two numbers that are in hands, either may be written first. -/
  free : ∀ p q s t, p ≠ q → (after timeout σ n).hand p = some s →
    (after timeout σ n).hand q = some t → (after timeout σ n).traffic.outlet = .writing →
      ∃ v a b, Leads move (after timeout σ n) v ∧ a.seq = s ∧ b.seq = t ∧
        v.written = (after timeout σ n).written ++ (after timeout σ n).queue ++ [a, b]

/-- **The order of numbers on the wire**, after every schedule. -/
theorem sequenced (timeout : Duration) (σ : Nat → Move) (n : Nat) : Sequenced timeout σ n := by
  have hnumbered := numbered_after timeout σ n
  have hsublist : (after timeout σ n).written.Sublist (after timeout σ n).traffic.posted :=
    (List.sublist_append_left ..).trans (queued_after timeout σ n).sublist
  refine ⟨hnumbered.distinct.sublist (hsublist.map _), hsublist,
    (inOrder_after timeout σ n).posted.sublist hsublist, ?_⟩
  intro p q s t hpq hs ht ho
  have hwriting : ∀ {w : Wire}, w.traffic.outlet = .writing → w.traffic.outlet ≠ .ended := by
    intro w hw
    rw [hw]
    simp
  obtain ⟨w, a, ha, hw⟩ := handsOver_of_hand hs (hwriting ho)
  have how : w.traffic.outlet = .writing := hw.outlet.trans ho
  obtain ⟨u, b, hb, hu⟩ := handsOver_of_hand ((hw.others q (Ne.symm hpq)).trans ht) (hwriting how)
  obtain ⟨v, hleads, hv⟩ := leads_written (hu.outlet.trans how)
  refine ⟨v, a, b, (hw.leads.trans hu.leads).trans hleads, ha, hb, ?_⟩
  rw [hv, hu.queue, hu.written, hw.queue, hw.written]
  simp only [List.append_assoc, List.cons_append, List.nil_append]

/-- Two calls take their numbers, and the second one hands its request over first. -/
def overtaking : List Move :=
  [.traffic (.ask 0 "threads" .null), .traffic (.step 0), .traffic (.ask 1 "threads" .null),
    .traffic (.step 1), .traffic (.step 0), .traffic (.step 1), .traffic (.step 1), .traffic (.step 1),
    .traffic (.step 0), .traffic (.step 0), .traffic .write, .traffic .write]

/-- Numbers do not always rise on the wire. -/
theorem not_rising : ¬ ∀ (timeout : Duration) (σ : Nat → Move) (n : Nat),
    ((after timeout σ n).written.map Message.seq).Pairwise (· < ·) := by
  intro h
  have hrising := h ⟨5000⟩ (fun k => overtaking.getD k .refuse) overtaking.length
  have hwritten : ((after ⟨5000⟩ (fun k => overtaking.getD k .refuse) overtaking.length).written.map
      Message.seq) = [2, 1] := by decide +kernel
  rw [hwritten] at hrising
  exact absurd hrising (by decide)

/-- A call that takes its number behind a refusal, and hands its request over in front of it. -/
def overtakenRefusal : List Move :=
  [.traffic (.ask 0 "threads" .null), .traffic (.step 0),
    .traffic (.arrive (Frame.encode (.request ⟨1, "runInTerminal", .null⟩))), .traffic .read,
    .traffic (.step 0), .traffic (.step 0), .traffic (.step 0), .refuse, .traffic .write,
    .traffic .write]

example : (overtakenRefusal.foldl move (start ⟨5000⟩)).written.map Message.seq = [2, 1] := by
  decide +kernel

end Wire
end DebugHost
