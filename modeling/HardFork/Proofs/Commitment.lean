import HardFork.Checkpoint

/-! # What the digest of a checkpoint binds

The index and the three hashes fill the octets that are hashed, each at its own place and all of
them without a gap, so the octets determine the checkpoint. Nothing is assumed of the hash function
but that it tells the two checkpoints apart that are compared. -/
namespace HardFork

theorem bigEndian_inj {width m n : Nat} (hm : m < Nat.pow 256 width) (hn : n < Nat.pow 256 width)
    (h : bigEndian width m = bigEndian width n) : m = n := by
  induction width generalizing m n with
  | zero =>
    change m < 1 at hm
    change n < 1 at hn
    omega
  | succ width ih =>
    obtain ⟨hhigh, hlow⟩ := List.append_inj' h rfl
    change m < Nat.pow 256 width*256 at hm
    change n < Nat.pow 256 width*256 at hn
    have hdiv : m/256 = n/256 :=
      ih (Nat.div_lt_of_lt_mul (by omega)) (Nat.div_lt_of_lt_mul (by omega)) hhigh
    have hmod : m%256 = n%256 := congrArg UInt8.toNat (List.cons.inj hlow).1
    omega

namespace Checkpoint

variable {c d : Checkpoint} {digest : Hash}

theorem preimage_inj_iff : c.preimage = d.preimage ↔ c = d := by
  constructor
  · intro h
    have hlength : ∀ a b : Hash, a.toList.length = b.toList.length := fun a b => by
      rw [a.length_toList, b.length_toList]
    obtain ⟨h, hbloom⟩ := List.append_inj' h (hlength _ _)
    obtain ⟨h, hcht⟩ := List.append_inj' h (hlength _ _)
    obtain ⟨hindex, hhead⟩ := List.append_inj' h (hlength _ _)
    have hindex := bigEndian_inj c.sectionIndex.toNat_lt d.sectionIndex.toNat_lt hindex
    cases c
    cases d
    cases UInt64.toNat_inj.mp hindex
    cases Octets.ext hhead
    cases Octets.ext hcht
    cases Octets.ext hbloom
    rfl
  · rintro rfl
    rfl

/-- Copies octets over the places from `start` up to `stop`, if there are as many of these. -/
def copyTo (start stop : Nat) (octets buffer : List UInt8) : Option (List UInt8) :=
  if stop ≤ buffer.length ∧ start+octets.length = stop then
    some (buffer.take start ++ octets ++ buffer.drop stop)
  else none

/-- The index and the hashes, copied one after the other into octets that are zero. -/
def filled? (c : Checkpoint) : Option (List UInt8) := do
  let buffer ← copyTo 0 8 (bigEndian 8 c.sectionIndex.toNat) (List.replicate preimageLength 0)
  let buffer ← copyTo 8 40 c.sectionHead.toList buffer
  let buffer ← copyTo 40 72 c.chtRoot.toList buffer
  copyTo 72 104 c.bloomRoot.toList buffer

/-- What is copied behind the filled part takes the place of as many zeros. -/
theorem copyTo_filled {start stop zeros left : Nat} {octets done : List UInt8}
    (hdone : done.length = start) (hstop : start+octets.length = stop)
    (hzeros : octets.length+left = zeros) :
    copyTo start stop octets (done ++ List.replicate zeros 0) =
      some ((done ++ octets) ++ List.replicate left 0) := by
  subst hdone hstop hzeros
  rw [copyTo, if_pos (by simp), List.take_left, List.drop_append,
    List.drop_of_length_le (by omega), List.drop_replicate]
  simp

/-- The copies fit, leave no gap and do not overlap. -/
theorem filled?_eq (c : Checkpoint) : c.filled? = some c.preimage := by
  obtain ⟨index, hindex⟩ : ∃ index, bigEndian 8 c.sectionIndex.toNat = index := ⟨_, rfl⟩
  have hlength : index.length = 8 := by rw [← hindex, length_bigEndian]
  have hhead := c.sectionHead.length_toList
  have hcht := c.chtRoot.length_toList
  have hbloom := c.bloomRoot.length_toList
  have copyIndex : copyTo 0 8 index ([] ++ List.replicate preimageLength 0) =
      some ([] ++ index ++ List.replicate 96 0) :=
    copyTo_filled rfl (by rw [hlength]) (by rw [hlength]; rfl)
  have copyHead : copyTo 8 40 c.sectionHead.toList (index ++ List.replicate 96 0) =
      some (index ++ c.sectionHead.toList ++ List.replicate 64 0) :=
    copyTo_filled hlength (by rw [hhead]) (by rw [hhead])
  have copyCht : copyTo 40 72 c.chtRoot.toList
      (index ++ c.sectionHead.toList ++ List.replicate 64 0) =
      some (index ++ c.sectionHead.toList ++ c.chtRoot.toList ++ List.replicate 32 0) :=
    copyTo_filled (by simp [hlength, hhead]) (by rw [hcht]) (by rw [hcht])
  have copyBloom : copyTo 72 104 c.bloomRoot.toList
      (index ++ c.sectionHead.toList ++ c.chtRoot.toList ++ List.replicate 32 0) =
      some (index ++ c.sectionHead.toList ++ c.chtRoot.toList ++ c.bloomRoot.toList ++
        List.replicate 0 0) :=
    copyTo_filled (by simp [hlength, hhead, hcht]) (by rw [hbloom]) (by rw [hbloom])
  rw [List.nil_append, List.nil_append] at copyIndex
  rw [filled?, preimage, hindex, copyIndex]
  simp only [bind, Option.bind, copyHead, copyCht, copyBloom]
  rw [List.replicate_zero, List.append_nil]

/-- One of the hashes is zero, whatever the index. -/
def HasZero (c : Checkpoint) : Prop :=
  c.sectionHead = .zero 32 ∨ c.chtRoot = .zero 32 ∨ c.bloomRoot = .zero 32

instance (c : Checkpoint) : Decidable c.HasZero :=
  inferInstanceAs (Decidable (_ ∨ _ ∨ _))

theorem isEmpty_iff : c.isEmpty ↔ c.HasZero := by
  simp only [isEmpty, Bool.or_eq_true, Octets.isZero_iff, HasZero, or_assoc]

/-- What is accepted when `K` is the hash function. -/
def acceptsWith (K : List UInt8 → Hash) (c : Checkpoint) (digest : Hash) : Bool :=
  if c.isEmpty then digest.isZero else K c.preimage = digest

variable {K : List UInt8 → Hash}

theorem acceptsWith_of_hasZero (h : c.HasZero) : c.acceptsWith K digest ↔ digest = .zero 32 := by
  rw [acceptsWith, if_pos (isEmpty_iff.mpr h), Octets.isZero_iff]

theorem acceptsWith_of_full (h : ¬ c.HasZero) :
    c.acceptsWith K digest ↔ digest = K c.preimage := by
  rw [acceptsWith, if_neg (mt isEmpty_iff.mp h), decide_eq_true_iff, eq_comm]

/-- The octets that are hashed are those that the copies leave, and they determine the checkpoint.
Where the hash function tells those of two checkpoints apart, no digest is accepted by both unless
they are one. A checkpoint with a zero hash accepts the zero digest alone, any other one the hash of
its octets alone, so both kinds accept one digest only if this hash is zero. -/
theorem digest_binds_checkpoint (K : List UInt8 → Hash) (c d : Checkpoint) (digest : Hash) :
    acceptsWith keccak256 = accepts ∧
    c.filled? = some c.preimage ∧ c.preimage.length = 104 ∧
    (c.preimage = d.preimage ↔ c = d) ∧
    ((K c.preimage = K d.preimage → c.preimage = d.preimage) → ¬ c.HasZero → ¬ d.HasZero →
      c.acceptsWith K digest → d.acceptsWith K digest → c = d) ∧
    (c.HasZero → (c.acceptsWith K digest ↔ digest = .zero 32)) ∧
    (¬ c.HasZero → (c.acceptsWith K digest ↔ digest = K c.preimage)) ∧
    (c.HasZero → ¬ d.HasZero → c.acceptsWith K digest → d.acceptsWith K digest →
      K d.preimage = .zero 32) := by
  refine ⟨rfl, c.filled?_eq, c.length_preimage, preimage_inj_iff, ?_, acceptsWith_of_hasZero,
    acceptsWith_of_full, ?_⟩
  · intro hK hc hd h h'
    have hhash : K c.preimage = K d.preimage :=
      ((acceptsWith_of_full hc).mp h).symm.trans ((acceptsWith_of_full hd).mp h')
    exact preimage_inj_iff.mp (hK hhash)
  · intro hc hd h h'
    exact ((acceptsWith_of_full hd).mp h').symm.trans ((acceptsWith_of_hasZero hc).mp h)

/-- A checkpoint accepts its own digest, and an empty one the digest zero. Under a function that
keeps the last octets, the digest is refused when two hashes of the checkpoint change places. -/
theorem swapped_hashes_told_apart :
    let full : Checkpoint := ⟨42, .ofNat 32 1, .ofNat 32 2, .ofNat 32 3⟩
    let swapped : Checkpoint := ⟨42, .ofNat 32 1, .ofNat 32 3, .ofNat 32 2⟩
    let empty : Checkpoint := ⟨42, .ofNat 32 1, .zero 32, .ofNat 32 3⟩
    let last : List UInt8 → Hash := fun octets =>
      .ofNat 32 (octets.foldl (fun n o => 256*n+o.toNat) 0)
    full.accepts full.hash ∧ empty.accepts (.zero 32) ∧
      ¬ swapped.acceptsWith last (last full.preimage) := by
  intro full swapped empty last
  have hfull : ¬ full.HasZero := by decide
  have hswapped : ¬ swapped.HasZero := by decide
  have hempty : empty.HasZero := by decide
  have hlast : last full.preimage ≠ last swapped.preimage := by decide +kernel
  obtain ⟨haccepts, -, -, -, -, -, hown, -⟩ := digest_binds_checkpoint keccak256 full full full.hash
  obtain ⟨-, -, -, -, -, hzero, -⟩ := digest_binds_checkpoint keccak256 empty full (.zero 32)
  obtain ⟨-, -, -, -, hbinds, -, hlastOwn, -⟩ :=
    digest_binds_checkpoint last full swapped (last full.preimage)
  rw [haccepts] at hown hzero
  refine ⟨(hown hfull).mpr rfl, (hzero hempty).mpr rfl, fun h => ?_⟩
  have heq : full = swapped :=
    hbinds (fun h => absurd h hlast) hfull hswapped ((hlastOwn hfull).mpr rfl) h
  exact absurd heq (by decide)

end Checkpoint
end HardFork
