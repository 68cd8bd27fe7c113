import Views.Deferred
import Mathlib.Tactic.IntervalCases
/-!
# The standard supply of tokens

Tokens that count in hexadecimal digits have the form of tokens, and are all different as long as
the digits suffice.

Nothing else is needed of the tokens that are given out; which ones they are, and that they are
random in a running engine, is left open everywhere else.
-/

namespace Views

/-- What is written for a digit is a digit of a token. -/
theorem isDigit_hexDigit (n : Nat) : Token.isDigit (hexDigit n) := by
  have hlt : n % 16 < 16 := Nat.mod_lt n (by omega)
  unfold hexDigit
  generalize n % 16 = k at hlt
  interval_cases k <;> decide

/-- Digits that are written alike are the same. -/
theorem hexDigit_inj {m n : Nat} (h : hexDigit m = hexDigit n) : m % 16 = n % 16 := by
  have hm : m % 16 < 16 := Nat.mod_lt m (by omega)
  have hn : n % 16 < 16 := Nat.mod_lt n (by omega)
  unfold hexDigit at h
  generalize m % 16 = a at hm h ⊢
  generalize n % 16 = b at hn h ⊢
  have hall : ∀ a < 16, ∀ b < 16, Nat.digitChar a = Nat.digitChar b → a = b := by decide
  exact hall a hm b hn h

/-- A number takes as many digits as it is given. -/
theorem length_hexDigits (width n : Nat) : (hexDigits width n).length = width := by
  induction width generalizing n with
  | zero => rfl
  | succ width ih => rw [hexDigits, List.length_append, ih, List.length_singleton]

/-- All that a number is written with are digits of a token. -/
theorem all_isDigit_hexDigits (width n : Nat) : (hexDigits width n).all Token.isDigit := by
  induction width generalizing n with
  | zero => rfl
  | succ width ih => simp [hexDigits, ih, isDigit_hexDigit]

/-- Numbers that so many digits suffice for have different digits. -/
theorem hexDigits_inj {width m n : Nat} (hm : m < 16 ^ width) (hn : n < 16 ^ width)
    (h : hexDigits width m = hexDigits width n) : m = n := by
  induction width generalizing m n with
  | zero => omega
  | succ width ih =>
    rw [hexDigits, hexDigits] at h
    obtain ⟨hinit, hlast⟩ := List.append_inj' h rfl
    have hmod : m % 16 = n % 16 := hexDigit_inj (List.singleton_inj.mp hlast)
    have hdiv : m / 16 = n / 16 := by
      refine ih ?_ ?_ hinit
      · rw [Nat.pow_succ] at hm
        omega
      · rw [Nat.pow_succ] at hn
        omega
    omega

/-- The token of a number has the form of tokens. -/
theorem Token.wellFormed_ofNat (n : Nat) : Token.WellFormed (Token.ofNat n) := by
  refine ⟨hexDigits width n, ?_, length_hexDigits _ _, all_isDigit_hexDigits _ _⟩
  rw [ofNat, String.toList_append, String.toList_append, String.toList_ofList]

/-- Numbers that fit into the digits of a token have tokens of their own. -/
theorem Token.ofNat_inj {m n : Nat} (hm : m < 16 ^ width) (hn : n < 16 ^ width)
    (h : Token.ofNat m = Token.ofNat n) : m = n := by
  have h := congrArg String.toList h
  rw [ofNat, ofNat, String.toList_append, String.toList_append, String.toList_append,
    String.toList_append, String.toList_ofList, String.toList_ofList] at h
  exact hexDigits_inj hm hn (List.append_cancel_left (List.append_cancel_right h))

/-- The standard supply gives out no token twice as long as the digits suffice. -/
theorem TokenSupply.distinctBelow_standard {used bound : Nat} (h : bound ≤ 16 ^ Token.width) :
    TokenSupply.DistinctBelow { used } bound := by
  refine ⟨fun i _ => Token.wellFormed_ofNat i, fun i hi j hj he => ?_⟩
  exact Token.ofNat_inj (by omega) (by omega) he

/-- So does a supply that starts with a later token. -/
theorem TokenSupply.distinctBelow_from {first used bound : Nat}
    (h : first + bound ≤ 16 ^ Token.width) :
    TokenSupply.DistinctBelow ⟨fun n => Token.ofNat (first + n), used⟩ bound := by
  refine ⟨fun i _ => Token.wellFormed_ofNat _, fun i hi j hj he => ?_⟩
  have hsum : first + i = first + j := Token.ofNat_inj (by omega) (by omega) he
  omega

end Views
