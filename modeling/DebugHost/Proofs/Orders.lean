/-! # Orders of moves

Something that changes by moves, each of which nothing can come between. A schedule gives the moves one
after the other, and `reached` what they lead to. Finitely many moves begin a schedule
(`Leads.schedule`), so that what holds in every schedule holds after every sequence of moves. -/

namespace DebugHost

variable {α μ : Type} {move : α → μ → α}

/-- What the first `n` moves of a schedule lead to. -/
def reached (move : α → μ → α) (x : α) (σ : Nat → μ) : Nat → α
  | 0 => x
  | n + 1 => move (reached move x σ n) (σ n)

theorem reached_succ (x : α) (σ : Nat → μ) (n : Nat) :
    reached move x σ (n + 1) = move (reached move x σ n) (σ n) := rfl

/-- Moves lead from one thing to another. -/
inductive Leads (move : α → μ → α) (x : α) : α → Prop where
  | refl : Leads move x x
  | tail {y : α} (m : μ) : Leads move x y → Leads move x (move y m)

theorem Leads.one (x : α) (m : μ) : Leads move x (move x m) := .tail m .refl

theorem Leads.trans {x y z : α} (h : Leads move x y) (h' : Leads move y z) : Leads move x z := by
  induction h' with
  | refl => exact h
  | tail m _ ih => exact .tail m ih

/-- Schedules with the same first moves lead to the same. -/
theorem reached_congr (x : α) {σ σ' : Nat → μ} {n : Nat} (h : ∀ k < n, σ k = σ' k) :
    reached move x σ n = reached move x σ' n := by
  induction n with
  | zero => rfl
  | succ n ih =>
    rw [reached_succ, reached_succ, ih fun k hk => h k (Nat.lt_succ_of_lt hk), h n (Nat.lt_succ_self n)]

/-- **Finitely many moves begin a schedule**, which any move `m₀` may fill up. -/
theorem Leads.schedule (m₀ : μ) {x y : α} (h : Leads move x y) :
    ∃ (σ : Nat → μ) (n : Nat), reached move x σ n = y := by
  induction h with
  | refl => exact ⟨fun _ => m₀, 0, rfl⟩
  | tail m _ ih =>
    obtain ⟨σ, n, rfl⟩ := ih
    refine ⟨fun k => if k < n then σ k else m, n + 1, ?_⟩
    rw [reached_succ, if_neg (Nat.lt_irrefl n), reached_congr x fun k hk => if_pos hk]

end DebugHost
