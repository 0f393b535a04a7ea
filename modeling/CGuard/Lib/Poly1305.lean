import CGuard.Lib.LittleEndian

/-!
# Poly1305

The polynomial of a message at a point, modulo `2^130 - 5`, and the authenticator that is made of it.
-/

namespace Poly1305

open LittleEndian

/-- The prime. -/
def prime : Nat := 2 ^ 130 - 5

/-- The point of a key: some of its bits are clear. -/
def clamp (r : Nat) : Nat := r &&& 0x0ffffffc0ffffffc0ffffffc0fffffff

/-- The number of a block: its bytes and a one behind them. -/
def block (bs : List UInt8) : Nat := ofBytes bs + 256 ^ bs.length

/-- A message is absorbed in blocks of 16 bytes; the last one may be shorter. -/
def absorb (r acc : Nat) (msg : List UInt8) : Nat :=
  if msg = [] then acc else absorb r ((acc + block (msg.take 16)) * r % prime) (msg.drop 16)
termination_by msg.length
decreasing_by
  have := List.length_pos_iff.mpr ‹_›
  rw [List.length_drop]
  omega

/-- The authenticator of a message. -/
def mac (key msg : List UInt8) : List UInt8 :=
  toBytes 16 (absorb (clamp (ofBytes (key.take 16))) 0 msg + ofBytes ((key.drop 16).take 16))

@[simp] theorem absorb_nil (r acc : Nat) : absorb r acc [] = acc := by
  rw [absorb, if_pos rfl]

/-- A message is absorbed block by block. -/
theorem absorb_of_ne_nil {r acc : Nat} {msg : List UInt8} (h : msg ≠ []) :
    absorb r acc msg = absorb r ((acc + block (msg.take 16)) * r % prime) (msg.drop 16) := by
  rw [absorb, if_neg h]

/-- One whole block, then the rest. -/
theorem absorb_block {r acc : Nat} {b : List UInt8} (hb : b.length = 16) (msg : List UInt8) :
    absorb r acc (b ++ msg) = absorb r ((acc + block b) * r % prime) msg := by
  have hne : b ++ msg ≠ [] := by
    intro h
    have := (List.append_eq_nil_iff.mp h).1
    rw [this] at hb
    cases hb
  rw [absorb_of_ne_nil hne, List.take_left' hb, List.drop_left' hb]

/-- Whole blocks, then the rest. -/
theorem absorb_append {r : Nat} {a : List UInt8} : ∀ {acc : Nat} (msg : List UInt8), 16 ∣ a.length →
    absorb r acc (a ++ msg) = absorb r (absorb r acc a) msg := by
  induction hn : a.length using Nat.strongRecOn generalizing a with
  | ind n ih =>
    intro acc msg hdvd
    by_cases ha : a = []
    · subst ha
      rw [List.nil_append, absorb_nil]
    · have hpos := List.length_pos_iff.mpr ha
      have h16 : 16 ≤ a.length := Nat.le_of_dvd hpos (hn ▸ hdvd)
      have htake : (a.take 16).length = 16 := by
        rw [List.length_take]
        omega
      have hdrop : (a.drop 16).length = n - 16 := by rw [List.length_drop, hn]
      have hsplit : a ++ msg = a.take 16 ++ (a.drop 16 ++ msg) := by rw [← List.append_assoc, List.take_append_drop]
      rw [hsplit, absorb_block htake, ih (n - 16) (by omega) hdrop msg (Nat.dvd_sub hdvd (Nat.dvd_refl 16)), absorb_of_ne_nil ha]

/-- The last, shorter block. -/
theorem absorb_short {r acc : Nat} {msg : List UInt8} (hne : msg ≠ []) (h : msg.length ≤ 16) :
    absorb r acc msg = (acc + block msg) * r % prime := by
  rw [absorb_of_ne_nil hne, List.take_of_length_le h, List.drop_eq_nil_of_le h, absorb_nil]

/-- The accumulator counts modulo the prime. -/
theorem absorb_congr {r acc acc' : Nat} {msg : List UInt8} (h : acc ≡ acc' [MOD prime]) :
    absorb r acc msg ≡ absorb r acc' msg [MOD prime] := by
  by_cases hm : msg = []
  · subst hm
    simpa using h
  · rw [absorb_of_ne_nil hm, absorb_of_ne_nil hm]
    have : (acc + block (msg.take 16)) * r % prime = (acc' + block (msg.take 16)) * r % prime := (h.add_right _).mul_right r
    rw [this]

/-- The accumulator stays below the prime. -/
theorem absorb_lt {r acc : Nat} {msg : List UInt8} (h : acc < prime) : absorb r acc msg < prime := by
  induction hn : msg.length using Nat.strongRecOn generalizing acc msg with
  | ind n ih =>
    by_cases hm : msg = []
    · subst hm
      simpa using h
    · have hpos := List.length_pos_iff.mpr hm
      rw [absorb_of_ne_nil hm]
      exact ih (n - 16) (by omega) (Nat.mod_lt _ (by decide)) (by rw [List.length_drop, hn])

end Poly1305
