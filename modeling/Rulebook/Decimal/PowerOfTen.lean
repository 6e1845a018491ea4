/-!
# Powers of ten
-/
namespace Rulebook

/-- One followed by `places` zeros. -/
def powerOfTen (places : Nat) : Nat :=
  Nat.pow 10 places

theorem powerOfTen_zero : powerOfTen 0 = 1 := rfl

theorem powerOfTen_succ (places : Nat) : powerOfTen (places + 1) = powerOfTen places * 10 := rfl

theorem powerOfTen_add (left right : Nat) :
    powerOfTen (left + right) = powerOfTen left * powerOfTen right :=
  Nat.pow_add 10 left right

theorem powerOfTen_pos (places : Nat) : 0 < powerOfTen places :=
  Nat.pow_pos (by decide)

theorem ten_le_powerOfTen {places : Nat} (positive : 0 < places) : 10 ≤ powerOfTen places := by
  obtain ⟨fewer, rfl⟩ : ∃ fewer, places = fewer + 1 := ⟨places - 1, by omega⟩
  have := powerOfTen_pos fewer
  rw [powerOfTen_succ]
  omega

end Rulebook
