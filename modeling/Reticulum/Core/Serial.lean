import Mathlib.Data.Nat.ModEq

/-!
# Serial numbers

Counters that live modulo `N` compare by how far one lies *ahead* of the other: `Serial.dist N a b`
is the number of increments that take `a` to `b`.  A serial number at distance `d` ahead of a
counter that has been incremented `r` times stands for the **absolute** number `r + d`
(`mod_add_dist`), and within one period of `r` for no other (`dist_unique`).
-/

namespace Serial

variable {N : ℕ}

/-- How far `b` lies ahead of `a` modulo `N`. -/
def dist (N a b : ℕ) : ℕ := (b + (N - a % N)) % N

lemma dist_lt (hN : 0 < N) (a b : ℕ) : dist N a b < N := Nat.mod_lt _ hN

lemma mod_add_dist (hN : 0 < N) (a b : ℕ) : (a + dist N a b) % N = b % N := by
  have ha : a % N < N := Nat.mod_lt a hN
  have hsum : a + (b + (N - a % N)) = b + N * (a / N + 1) := by
    have := Nat.div_add_mod a N
    rw [mul_add, mul_one]
    omega
  calc (a + dist N a b) % N
      = (a + (b + (N - a % N))) % N := by rw [dist, Nat.add_mod_mod]
    _ = b % N := by rw [hsum, Nat.add_mul_mod_self_left]

/-- The distance is the only number of increments below `N` that arrives at `b`. -/
lemma dist_unique {a b d : ℕ} (hd : d < N) (h : (a + d) % N = b % N) : dist N a b = d := by
  have hN : 0 < N := by omega
  have hmod : a + dist N a b ≡ a + d [MOD N] := (mod_add_dist hN a b).trans h.symm
  have := Nat.ModEq.add_left_cancel' a hmod
  rwa [Nat.ModEq, Nat.mod_eq_of_lt (dist_lt hN a b), Nat.mod_eq_of_lt hd] at this

lemma dist_mod_left (hN : 0 < N) (a b : ℕ) : dist N (a % N) b = dist N a b := by
  refine dist_unique (dist_lt hN a b) ?_
  rw [Nat.mod_add_mod, mod_add_dist hN]

lemma dist_mod_right (hN : 0 < N) (a b : ℕ) : dist N a (b % N) = dist N a b := by
  refine dist_unique (dist_lt hN a b) ?_
  rw [mod_add_dist hN, Nat.mod_mod]

/-- An absolute number less than one period ahead is at its own distance. -/
lemma dist_of_le {r k : ℕ} (h : r ≤ k) (hk : k < r + N) : dist N (r % N) (k % N) = k - r := by
  have hN : 0 < N := by omega
  rw [dist_mod_left hN, dist_mod_right hN]
  exact dist_unique (by omega) (by rw [Nat.add_sub_cancel' h])

lemma dist_self (hN : 0 < N) (a : ℕ) : dist N a a = 0 := dist_unique hN rfl

lemma dist_eq_zero {a b : ℕ} (ha : a < N) (hb : b < N) : dist N a b = 0 ↔ a = b := by
  constructor
  · intro h
    have := mod_add_dist (by omega : 0 < N) a b
    rwa [h, add_zero, Nat.mod_eq_of_lt ha, Nat.mod_eq_of_lt hb] at this
  · rintro rfl
    exact dist_self (by omega) a

lemma dist_inj {a b c : ℕ} (hb : b < N) (hc : c < N) (h : dist N a b = dist N a c) : b = c := by
  have hN : 0 < N := by omega
  have := (mod_add_dist hN a b).symm.trans ((congrArg (fun d => (a + d) % N) h).trans
    (mod_add_dist hN a c))
  rwa [Nat.mod_eq_of_lt hb, Nat.mod_eq_of_lt hc] at this

/-- One increment of the counter brings everything else one step nearer. -/
lemma dist_succ {a b : ℕ} (hN : 0 < N) (h : 0 < dist N a b) :
    dist N ((a + 1) % N) b = dist N a b - 1 := by
  rw [dist_mod_left hN]
  refine dist_unique (by have := dist_lt hN a b; omega) ?_
  have : a + 1 + (dist N a b - 1) = a + dist N a b := by omega
  rw [this, mod_add_dist hN]

/-- A number less than `N - w` behind the counter, or at most `w` ahead of it, that is found at
distance at most `w` is the number at that distance itself. -/
lemma eq_add_dist {r k w : ℕ} (hw : w < N) (hlow : r + w < k + N) (hhigh : k ≤ r + w)
    (hd : dist N (r % N) (k % N) ≤ w) : k = r + dist N (r % N) (k % N) := by
  rcases lt_or_ge k r with hlt | hge
  · -- `k` is behind by `r - k`, so it would be `N - (r - k) > w` ahead
    have hN : 0 < N := by omega
    have : dist N (r % N) (k % N) = N - (r - k) := by
      rw [dist_mod_left hN, dist_mod_right hN]
      refine dist_unique (by omega) ?_
      have : r + (N - (r - k)) = k + N := by omega
      rw [this, Nat.add_mod_right]
    omega
  · have := dist_of_le hge (by omega : k < r + N)
    omega

end Serial
