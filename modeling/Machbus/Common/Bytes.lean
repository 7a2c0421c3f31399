import Mathlib.Data.List.Basic
import Mathlib.Data.Nat.Bitwise
import Mathlib.Data.Nat.ModEq
import Mathlib.Algebra.Order.Ring.Nat
import Mathlib.Tactic.Ring
/-!
# Blocks and words of bytes

A payload travels in blocks of a fixed size. The sender reads a block off
its buffer and pads past the end; the receiver writes a block into a
buffer of the announced size and drops what does not fit. Both loops run
element by element, each with its own bounds test; the results here
replace them by `take`, `drop` and `++`. A machine word is laid out as
bytes by shifting and masking and read back by shifting and or-ing, which
on `ℕ` is linear arithmetic.
-/

namespace Machbus

open List

variable {α : Type*} {total off : ℕ} {data : List α} {fill : α}

/-- The receiver's loop: element `i` of the block goes to `off + i`,
unless that is past `total`. -/
def writeBlock (total : ℕ) : List α → ℕ → List α → List α
  | buf, _, [] => buf
  | buf, off, b :: bs => writeBlock total (if off < total then buf.set off b else buf) (off + 1) bs

/-- The sender's loop: element `j` of the block is `off + j` of the data,
or the padding past `total`. -/
def readBlock (fill : α) (total : ℕ) (data : List α) (off n : ℕ) : List α :=
  (List.range n).map fun j => if off + j < total then data.getD (off + j) fill else fill

@[simp] theorem length_readBlock (fill : α) (total : ℕ) (data : List α) (off n : ℕ) :
    (readBlock fill total data off n).length = n := by
  simp [readBlock]

@[simp] theorem length_writeBlock (bs buf : List α) (off : ℕ) :
    (writeBlock total buf off bs).length = buf.length := by
  induction bs generalizing buf off with
  | nil => rfl
  | cons b bs ih =>
    rw [writeBlock, ih]
    split <;> simp

section

variable {buf : List α} (bs : List α) (hlen : buf.length = total) (hoff : off ≤ total)
include hlen hoff

/-- **What the receiver's loop writes.** Everything before the block and
behind it is left alone. -/
theorem writeBlock_eq : writeBlock total buf off bs =
      (buf.take off ++ bs ++ buf.drop (off + bs.length)).take total := by
  induction bs generalizing buf off with
  | nil => simp [writeBlock, take_of_length_le, hlen]
  | cons b bs ih =>
    rcases Nat.lt_or_ge off total with hlt | hge
    · -- the element fits: it closes the part already written
      have hset : (buf.set off b).take (off + 1) = buf.take off ++ [b] := by
        rw [take_add_one, take_set_of_le (Nat.le_refl off)]
        simp [hlen, hlt]
      have hdrop : (buf.set off b).drop (off + 1 + bs.length) =
          buf.drop (off + (b :: bs).length) := by
        rw [drop_set_of_lt (by omega), length_cons]
        congr 1
        omega
      rw [writeBlock, if_pos hlt, ih (by simpa using hlen) hlt, hset, hdrop]
      simp
    · -- nothing of the block fits any more
      have heq : off = total := by omega
      have hskip : ∀ (bs : List α) (o : ℕ), total ≤ o → writeBlock total buf o bs = buf := by
        intro bs
        induction bs with
        | nil => intro o _; rfl
        | cons c cs ihc =>
          intro o ho
          rw [writeBlock, if_neg (by omega)]
          exact ihc (o + 1) (by omega)
      rw [hskip _ _ hge, heq, ← hlen, take_length, append_assoc, take_left']
      rfl

/-- What lies before the end of the block, after writing it. -/
theorem take_writeBlock :
    (writeBlock total buf off bs).take (off + bs.length) = (buf.take off ++ bs).take total := by
  rw [writeBlock_eq bs hlen hoff, take_take, Nat.min_comm, ← take_take]
  rw [take_left']
  rw [length_append, length_take]
  omega

end

/-- **A buffer filled in order.** Blocks numbered from one on have been
written one behind the other; they fill the buffer up to the last of
them. -/
structure Assembled (size total last : ℕ) (buf : List α) (parts : List (ℕ × List α)) : Prop where
  numbered : parts.map Prod.fst = List.range' 1 last
  length : buf.length = total
  filled : buf.take (last * size) = (parts.flatMap Prod.snd).take total
  blocks : (parts.flatMap Prod.snd).length = last * size

namespace Assembled

variable {size total last : ℕ} {buf : List α} {parts : List (ℕ × List α)}

/-- Nothing written yet. -/
theorem start (hlen : buf.length = total) : Assembled size total 0 buf [] :=
  ⟨rfl, hlen, by simp, by simp⟩

/-- **The next block** continues the numbers and extends the part of the
buffer that is filled. -/
theorem next (h : Assembled size total last buf parts) {block : List α}
    (hblock : block.length = size) (hopen : last * size < total) :
    Assembled size total (last + 1) (writeBlock total buf (last * size) block)
      (parts ++ [(last + 1, block)]) := by
  refine ⟨?_, ?_, ?_, ?_⟩
  · rw [map_append, h.numbered, map_singleton, range'_concat, Nat.one_mul, Nat.add_comm 1]
  · rw [length_writeBlock, h.length]
  · -- the block is written right behind what the earlier ones filled
    have hfit : (parts.flatMap Prod.snd).take total = parts.flatMap Prod.snd :=
      take_of_length_le (by rw [h.blocks]; omega)
    have htake := take_writeBlock block h.length (Nat.le_of_lt hopen)
    rw [hblock, h.filled, hfit] at htake
    rw [Nat.add_mul, Nat.one_mul, htake, flatMap_append, flatMap_singleton]
  · rw [flatMap_append, length_append, h.blocks, flatMap_singleton, hblock,
      Nat.add_mul, Nat.one_mul]

/-- **The last block** makes the buffer the blocks, cut to size. -/
theorem whole (h : Assembled size total last buf parts) (hlast : total ≤ last * size) :
    buf = (parts.flatMap Prod.snd).take total := by
  rw [← h.filled, take_of_length_le (by rw [h.length]; exact hlast)]

end Assembled

/-- **One block further.** The data up to a block boundary, followed by
the block the sender reads there, is the data up to the next one. -/
theorem take_append_readBlock (hlen : data.length = total) (off n : ℕ) (hoff : off ≤ total) :
    (data.take off ++ readBlock fill total data off n).take total = data.take (off + n) := by
  apply ext_getElem?
  intro i
  rcases Nat.lt_or_ge i total with hi | hi
  · rw [getElem?_take_of_lt hi]
    rcases Nat.lt_or_ge i off with hio | hio
    · rw [getElem?_append_left (by rw [length_take]; omega),
        getElem?_take_of_lt hio, getElem?_take_of_lt (by omega)]
    · rw [getElem?_append_right (by rw [length_take]; omega), length_take,
        Nat.min_eq_left (by omega), readBlock, getElem?_map]
      rcases Nat.lt_or_ge (i - off) n with hn | hn
      · have hadd : off + (i - off) = i := by omega
        rw [getElem?_range hn, getElem?_take_of_lt (by omega), Option.map_some, hadd, if_pos hi,
          getD_eq_getElem?_getD, getElem?_eq_getElem (by omega), Option.getD_some]
      · rw [getElem?_eq_none (by simpa using hn), getElem?_eq_none (by simp; omega)]
        rfl
  · rw [getElem?_eq_none (by rw [length_take]; omega),
      getElem?_eq_none (by rw [length_take]; omega)]

/-- The data up to `off`, and padding for the rest. -/
def bufferUpTo (fill : α) (data : List α) (off : ℕ) : List α :=
  data.take off ++ List.replicate (data.length - off) fill

/-- **A block sent is a block received.** Writing the block the sender
reads at `off` moves the received part from `off` to `off + n`. -/
theorem writeBlock_readBlock {off n : ℕ} (hoff : off ≤ data.length) :
    writeBlock data.length (bufferUpTo fill data off) off
      (readBlock fill data.length data off n) = bufferUpTo fill data (off + n) := by
  have hlen : (bufferUpTo fill data off).length = data.length := by
    rw [bufferUpTo, length_append, length_take, length_replicate]
    omega
  have htake : (bufferUpTo fill data off).take off = data.take off := by
    rw [bufferUpTo, take_left' (by rw [length_take]; omega)]
  have hdrop : (bufferUpTo fill data off).drop (off + n) =
      replicate (data.length - (off + n)) fill := by
    rw [bufferUpTo, drop_append, length_take, drop_replicate,
      drop_eq_nil_of_le (by rw [length_take]; omega), nil_append]
    congr 1
    omega
  rw [writeBlock_eq _ hlen hoff, htake, length_readBlock, hdrop, bufferUpTo]
  rcases Nat.lt_or_ge (off + n) data.length with h | h
  · -- the block fits whole, and the padding behind it survives
    have hfit : data.take off ++ readBlock fill data.length data off n = data.take (off + n) := by
      have hle : (data.take off ++ readBlock fill data.length data off n).length ≤ data.length := by
        rw [length_append, length_take, length_readBlock]
        omega
      rw [← take_of_length_le hle, take_append_readBlock rfl off n hoff]
    have hle : (data.take (off + n) ++
        replicate (data.length - (off + n)) fill).length ≤ data.length := by
      rw [length_append, length_take, length_replicate]
      omega
    rw [hfit, take_of_length_le hle]
  · rw [Nat.sub_eq_zero_of_le h, replicate_zero, append_nil, append_nil,
      take_append_readBlock rfl off n hoff]

/-- Everything received. -/
theorem bufferUpTo_of_le (h : data.length ≤ off) : bufferUpTo fill data off = data := by
  rw [bufferUpTo, take_of_length_le h, Nat.sub_eq_zero_of_le h, replicate_zero, append_nil]

/-! ## Little-endian words -/

open List Nat

/-- **Disjoint parts add.** An `or` of a multiple of `2 ^ i` with
something below `2 ^ i` carries nothing. -/
theorem or_eq_add {a b i : ℕ} (ha : 2 ^ i ∣ a) (hb : b < 2 ^ i) : a ||| b = a + b := by
  obtain ⟨c, rfl⟩ := ha
  exact (two_pow_add_eq_or_of_lt hb c).symm

/-- Byte `i` of a word: `((w >> 8 * i) & 0xFF) as u8`. -/
def leByte (w i : ℕ) : UInt8 := UInt8.ofNat ((w >>> (8 * i)) &&& 0xFF)

@[simp] theorem leByte_toNat (w i : ℕ) : (leByte w i).toNat = w / 256 ^ i % 256 := by
  have hmask : (w >>> (8 * i)) &&& 0xFF = w / 256 ^ i % 256 := by
    rw [shiftRight_eq_div_pow, pow_mul, show (0xFF : ℕ) = 2 ^ 8 - 1 from rfl,
      and_two_pow_sub_one_eq_mod]
    norm_num
  rw [leByte, hmask]
  exact mod_eq_of_lt (by have := mod_lt (w / 256 ^ i) (by decide : 256 > 0); omega)

/-- The word a list of bytes holds, first byte lowest:
`b₀ | b₁ << 8 | b₂ << 16 | …`. -/
def ofLe : List UInt8 → ℕ
  | [] => 0
  | b :: bs => b.toNat ||| (ofLe bs <<< 8)

@[simp] theorem ofLe_nil : ofLe [] = 0 := rfl

@[simp] theorem ofLe_cons (b : UInt8) (bs : List UInt8) :
    ofLe (b :: bs) = b.toNat + 256 * ofLe bs := by
  rw [ofLe, Nat.shiftLeft_eq, Nat.or_comm, or_eq_add (i := 8) (Dvd.intro_left _ rfl) b.toNat_lt]
  omega

/-- The low `n` bytes of a word. -/
def leBytes (w n : ℕ) : List UInt8 := (range n).map (leByte w)

/-- **What was laid out is read back**, up to the bytes there was room
for. -/
theorem ofLe_leBytes (w n : ℕ) : ofLe (leBytes w n) = w % 256 ^ n := by
  induction n generalizing w with
  | zero => simp [leBytes, mod_one]
  | succ n ih =>
    have htail : (range n).map (fun i => leByte w (i + 1)) = leBytes (w / 256) n := by
      refine map_congr_left fun i _ => UInt8.toNat_inj.mp ?_
      rw [leByte_toNat, leByte_toNat, pow_succ', Nat.div_div_eq_div_mul]
    have hcons : leBytes w (n + 1) = leByte w 0 :: leBytes (w / 256) n := by
      rw [leBytes, range_succ_eq_map, map_cons, map_map, ← htail]
      rfl
    rw [hcons, ofLe_cons, ih, leByte_toNat, pow_zero, Nat.div_one, pow_succ', Nat.mod_mul]

/-- Two bytes hold a word below `2 ^ 16`. -/
theorem ofLe_two {w : ℕ} (h : w < 2 ^ 16) : ofLe [leByte w 0, leByte w 1] = w :=
  (ofLe_leBytes w 2).trans (mod_eq_of_lt (by simpa using h))

/-- Three bytes hold a word below `2 ^ 24`. -/
theorem ofLe_three {w : ℕ} (h : w < 2 ^ 24) : ofLe [leByte w 0, leByte w 1, leByte w 2] = w :=
  (ofLe_leBytes w 3).trans (mod_eq_of_lt (by simpa using h))

end Machbus
