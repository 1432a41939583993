import Sponge.Lib.BigEndian

/-!
# One's-complement sums of 16-bit words

`wordSum odd bs` adds up a byte string as big-endian 16-bit words; `odd` says that its first byte is
the second half of a word, so that a string can be added piece by piece (`wordSum_append`).
`residue` is the one's-complement reduction of a sum to 16 bits, which a `carry` folded back in
leaves as it is (`residue_carry`). A sum `Verifies` when it reduces to all ones: adding the
complement of the reduction makes every sum verify (`verifies_add_complement`), so a string whose
checksum field was zero verifies once the complement of its sum is put there (`verifies_insert`). A
string that verifies does not once one of its bytes is changed (`not_verifies_of_changed`).

`onesSum` is the sum by the book: word after word, with the carry of each addition going around to
the low end. `onesSum_eq`: it is the reduction of the plain sum.
-/

namespace OnesComplement

open BigEndian

/-- The sum of the 16-bit words of a byte string, the last one padded with zero. -/
def wordSum : Bool → List UInt8 → ℕ
  | _, [] => 0
  | odd, b :: bs => (if odd then b.toNat else b.toNat * 256) + wordSum (!odd) bs

/-- Where the next byte belongs after `bs`. -/
def after (odd : Bool) (bs : List UInt8) : Bool := odd ^^ decide (bs.length % 2 = 1)

/-- One round of folding the carries of a sum back into its low half. -/
def carry (n : ℕ) : ℕ := n / 65536 + n % 65536

/-- The one's-complement reduction of a sum to 16 bits: only zero reduces to zero. -/
def residue (n : ℕ) : ℕ := if n = 0 then 0 else (n - 1) % 65535 + 1

/-- The sum reduces to all ones. -/
def Verifies (n : ℕ) : Prop := 0 < n ∧ n % 65535 = 0

instance (n : ℕ) : Decidable (Verifies n) := inferInstanceAs (Decidable (0 < n ∧ n % 65535 = 0))

variable {odd : Bool} {bs cs : List UInt8} {n : ℕ}

@[simp] theorem wordSum_nil : wordSum odd [] = 0 := by rw [wordSum]

@[simp] theorem after_nil : after odd [] = odd := by simp [after]

@[simp] theorem after_cons (b : UInt8) : after odd (b :: bs) = after (!odd) bs := by
  have hlen : decide ((bs.length + 1) % 2 = 1) = !decide (bs.length % 2 = 1) := by
    rw [← decide_not, decide_eq_decide]
    omega
  simp only [after, List.length_cons, hlen]
  cases odd <;> simp

theorem after_of_even (h : bs.length % 2 = 0) : after odd bs = odd := by simp [after, h]

theorem wordSum_append (odd : Bool) (bs cs : List UInt8) :
    wordSum odd (bs ++ cs) = wordSum odd bs + wordSum (after odd bs) cs := by
  induction bs generalizing odd with
  | nil => simp
  | cons b bs ih => simp only [List.cons_append, wordSum, ih, after_cons, Nat.add_assoc]

/-- A string behind one of even length. -/
theorem wordSum_append_of_even (h : bs.length % 2 = 0) :
    wordSum odd (bs ++ cs) = wordSum odd bs + wordSum odd cs := by
  rw [wordSum_append, after_of_even h]

/-- Each byte counts at most as the high half of a word. -/
theorem wordSum_le (odd : Bool) (bs : List UInt8) : wordSum odd bs ≤ 65280 * bs.length := by
  induction bs generalizing odd with
  | nil => simp
  | cons b bs ih =>
    have hb := b.toNat_lt
    have hrest := ih (!odd)
    have hhead : (if odd then b.toNat else b.toNat * 256) ≤ 65280 := by
      split <;> omega
    simp only [wordSum, List.length_cons]
    omega

theorem residue_of_le (h : n ≤ 65535) : residue n = n := by
  unfold residue
  split <;> omega

theorem residue_le (n : ℕ) : residue n ≤ 65535 := by
  unfold residue
  split <;> omega

/-- **Folding the carries in** does not change the reduction. -/
theorem residue_carry_add (n m : ℕ) : residue (carry n + m) = residue (n + m) := by
  unfold residue carry
  split <;> split <;> omega

theorem residue_carry (n : ℕ) : residue (carry n) = residue n := residue_carry_add n 0

theorem verifies_iff_residue : Verifies n ↔ residue n = 65535 := by
  unfold Verifies residue
  split <;> omega

/-- **The complement completes the sum**, whatever it is. -/
theorem verifies_add_complement (n : ℕ) : Verifies (n + (65535 - residue n)) := by
  unfold Verifies residue
  split <;> omega

theorem wordSum_toBytes {x : ℕ} (h : x < 65536) : wordSum false (toBytes 2 x) = x := by
  have hbytes : toBytes 2 x = [UInt8.ofNat (x / 256), UInt8.ofNat x] := by
    rw [toBytes_succ 1, toBytes_succ 0]
    rfl
  simp only [hbytes, wordSum, UInt8.toNat_ofNat', Bool.false_eq_true, Bool.not_false, ↓reduceIte]
  omega

/-- A word at an even offset of a string. -/
theorem wordSum_word {front back : List UInt8} {x : ℕ} (h : front.length % 2 = 0)
    (hx : x < 65536) :
    wordSum false (front ++ (toBytes 2 x ++ back)) =
      wordSum false front + (x + wordSum false back) := by
  rw [wordSum_append_of_even h, wordSum_append_of_even (by simp), wordSum_toBytes hx]

/-- **Inserting the checksum**: the complement of a sum, put into the string in place of zero. -/
theorem verifies_insert {front back : List UInt8} (h : front.length % 2 = 0) (n : ℕ) {x : ℕ}
    (hx : x = 65535 - residue (n + wordSum false (front ++ (toBytes 2 0 ++ back)))) :
    Verifies (n + wordSum false (front ++ (toBytes 2 x ++ back))) := by
  have hall := verifies_add_complement (n + wordSum false (front ++ (toBytes 2 0 ++ back)))
  rw [← hx] at hall
  rw [wordSum_word h (by decide)] at hall
  rw [wordSum_word h (by omega)]
  have hsum : n + (wordSum false front + (0 + wordSum false back)) + x =
      n + (wordSum false front + (x + wordSum false back)) := by omega
  rwa [hsum] at hall

/-- **One changed byte**: the sum moves, by less than 65535, and does not verify any more. -/
theorem not_verifies_of_changed {front back : List UInt8} {b b' : UInt8} (hne : b ≠ b')
    (h : Verifies (n + wordSum odd (front ++ b :: back))) :
    ¬ Verifies (n + wordSum odd (front ++ b' :: back)) := by
  have hb := b.toNat_lt
  have hb' := b'.toNat_lt
  have hval : b.toNat ≠ b'.toNat := fun heq => hne (UInt8.toNat_inj.1 heq)
  rw [wordSum_append, wordSum] at h ⊢
  unfold Verifies at h ⊢
  -- the byte is the low or the high half of its word
  generalize after odd front = low at h ⊢
  cases low with
  | true =>
    simp only [↓reduceIte] at h ⊢
    omega
  | false =>
    simp only [Bool.false_eq_true, ↓reduceIte] at h ⊢
    omega

/-! ## The sum by the book -/

/-- The big-endian 16-bit words of a byte string, the last one padded with zero. -/
def words : List UInt8 → List ℕ
  | [] => []
  | [b] => [b.toNat * 256]
  | b :: b' :: bs => (b.toNat * 256 + b'.toNat) :: words bs

theorem wordSum_eq_sum (bs : List UInt8) : wordSum false bs = (words bs).sum := by
  fun_induction words bs with
  | case1 => rfl
  | case2 b => simp [wordSum]
  | case3 b b' bs ih => simp [wordSum, ih, Nat.add_assoc]

theorem le_of_mem_words {w : ℕ} (hw : w ∈ words bs) : w ≤ 65535 := by
  fun_induction words bs with
  | case1 => cases hw
  | case2 b =>
    have hb := b.toNat_lt
    rw [List.mem_singleton.1 hw]
    omega
  | case3 b b' bs ih =>
    have hb := b.toNat_lt
    have hb' := b'.toNat_lt
    rcases List.mem_cons.1 hw with rfl | hw
    · omega
    · exact ih hw

/-- One's-complement addition of 16-bit words: a carry goes around to the low end. -/
def addCarry (a b : ℕ) : ℕ := if a + b < 65536 then a + b else a + b - 65535

/-- The one's-complement sum of 16-bit words. -/
def onesSum (ws : List ℕ) : ℕ := ws.foldl addCarry 0

theorem addCarry_residue {w : ℕ} (hw : w ≤ 65535) : addCarry (residue n) w = residue (n + w) := by
  unfold addCarry residue
  split <;> split <;> split <;> omega

/-- **The sum by the book** is the reduction of the plain sum. -/
theorem onesSum_eq {ws : List ℕ} (hws : ∀ w ∈ ws, w ≤ 65535) : onesSum ws = residue ws.sum := by
  have hfrom : ∀ n, ws.foldl addCarry (residue n) = residue (n + ws.sum) := by
    induction ws with
    | nil => simp
    | cons w ws ih =>
      intro n
      obtain ⟨hw, hws⟩ := List.forall_mem_cons.1 hws
      rw [List.foldl_cons, addCarry_residue hw, ih hws, List.sum_cons, Nat.add_assoc]
  simpa [onesSum, residue_of_le] using hfrom 0

end OnesComplement
