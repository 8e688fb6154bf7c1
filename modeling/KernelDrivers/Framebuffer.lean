import KernelDrivers.Lib.Packed
import Mathlib.Data.Nat.ModEq
import Mathlib.Data.UInt
import Mathlib.Tactic.Ring
import Mathlib.Tactic.SplitIfs

/-!
# The registers of `fbexample.c`

`myfb_check_var` rounds a resolution up and accepts every mode.
`myfb_set_par` then packs the timings into three registers, and computes the
start of the screen and the length of a line in 32 bits.  Nothing on the way
bounds a field from above.

`unsigned long` has `32 + k` bits.
-/

namespace KernelDrivers
namespace Framebuffer

open Lib Packed

/-- `struct fb_bitfield`. -/
structure FbBitfield where
  offset : UInt32
  length : UInt32
  deriving DecidableEq

/-- `struct fb_var_screeninfo`. -/
structure FbVarScreeninfo where
  xres : UInt32
  yres : UInt32
  xresVirtual : UInt32
  xoffset : UInt32
  yoffset : UInt32
  bitsPerPixel : UInt32
  red : FbBitfield
  green : FbBitfield
  blue : FbBitfield
  transp : FbBitfield
  leftMargin : UInt32
  rightMargin : UInt32
  upperMargin : UInt32
  lowerMargin : UInt32
  hsyncLen : UInt32
  vsyncLen : UInt32
  deriving DecidableEq

variable {k : Nat}

/-- `struct fb_fix_screeninfo`. -/
structure FbFixScreeninfo (k : Nat) where
  smemStart : BitVec (32 + k)
  visual : UInt32
  accel : UInt32
  lineLength : UInt32
  deriving DecidableEq

/-- `struct fb_info`. -/
structure FbInfo (k : Nat) where
  var : FbVarScreeninfo
  fix : FbFixScreeninfo k
  deriving DecidableEq

/-- `FB_ACCEL_NONE`. -/
def fbAccelNone : UInt32 := 0

/-- `FB_VISUAL_TRUECOLOR`. -/
def fbVisualTruecolor : UInt32 := 2

/-! ## Checking a mode -/

/-- The least resolution. -/
def FbVarScreeninfo.roundUp (var : FbVarScreeninfo) : FbVarScreeninfo :=
  { var with
    xres := if var.xres < 64 then 64 else var.xres
    yres := if var.yres < 64 then 64 else var.yres }

/-- The RGB565 color format. -/
def FbVarScreeninfo.setColors (var : FbVarScreeninfo) : FbVarScreeninfo :=
  if var.bitsPerPixel = 16 then
    { var with
      red := ⟨11, 5⟩
      green := ⟨5, 6⟩
      blue := ⟨0, 5⟩
      transp := ⟨0, 0⟩ }
  else var

/-- `myfb_check_var`: what it returns, and the mode it leaves. -/
def myfbCheckVar (var : FbVarScreeninfo) : Int × FbVarScreeninfo :=
  (0, var.roundUp.setColors)

/-! ## Setting a mode -/

/-- What `myfb_set_par` writes to the controller. -/
structure Written where
  hsyncReg : UInt32
  vsyncReg : UInt32
  sizeReg : UInt32
  /-- The word and the address that `__raw_writel` gets. -/
  rawWritel : UInt32 × UInt32
  deriving DecidableEq

/-- `HSYNC_REG` and `VSYNC_REG`: 16 bits of sync duration, and two margins of 8
bits. -/
def syncWord (len near far : UInt32) : UInt32 :=
  (len <<< 16) ||| (near <<< 8) ||| far

/-- `adjusted_fb_start`.  The product and the quotient are in 32 bits. -/
def adjustedFbStart (info : FbInfo k) : BitVec (32 + k) :=
  let var := info.var
  info.fix.smemStart +
    ((var.yoffset * var.xresVirtual + var.xoffset) * var.bitsPerPixel /
      8).toBitVec.setWidth (32 + k)

/-- `myfb_set_par`, with what the register `DMA_REG` holds: the source uses
that, and not the address of the register, for the address of the start. -/
def myfbSetPar (info : FbInfo k) (dmaReg : UInt32) :
    Int × Written × FbFixScreeninfo k :=
  let var := info.var
  (0,
    { hsyncReg := syncWord var.hsyncLen var.leftMargin var.rightMargin
      vsyncReg := syncWord var.vsyncLen var.upperMargin var.lowerMargin
      sizeReg := (var.xres <<< 16) ||| var.yres
      rawWritel := (.ofBitVec ((adjustedFbStart info).setWidth 32), dmaReg) },
    { info.fix with
      accel := fbAccelNone
      visual := fbVisualTruecolor
      lineLength := var.xresVirtual * var.bitsPerPixel / 8 })

/-- The mode is checked, and stored in `info`. -/
def FbInfo.checked (info : FbInfo k) (var : FbVarScreeninfo) : FbInfo k :=
  { info with var := (myfbCheckVar var).2 }

/-- Whatever the mode is, it is accepted and set. -/
theorem accepted (info : FbInfo k) (var : FbVarScreeninfo) (dmaReg : UInt32) :
    (myfbCheckVar var).1 = 0 ∧ (myfbSetPar (info.checked var) dmaReg).1 = 0 :=
  ⟨rfl, rfl⟩

/-- 640 by 480 pixels of 16 bits. -/
def vga : FbVarScreeninfo where
  xres := 640
  yres := 480
  xresVirtual := 640
  xoffset := 0
  yoffset := 0
  bitsPerPixel := 16
  red := ⟨11, 5⟩
  green := ⟨5, 6⟩
  blue := ⟨0, 5⟩
  transp := ⟨0, 0⟩
  leftMargin := 48
  rightMargin := 16
  upperMargin := 33
  lowerMargin := 10
  hsyncLen := 96
  vsyncLen := 2

/-- `unsigned long` has 32 bits, and the memory is at `0xc0000000`. -/
def board : FbInfo 0 := ⟨vga, ⟨0xc0000000, 0, 0, 0⟩⟩

/-- A left margin of 256 pixels. -/
def wideMargin : FbVarScreeninfo := { vga with leftMargin := 256 }

/-- Rows of 641 pixels of 4 bits, and the screen two rows down. -/
def oddRow : FbVarScreeninfo :=
  { vga with bitsPerPixel := 4, xresVirtual := 641, yoffset := 2 }

/-! ## The timing registers -/

/-- The three fields of a sync register. -/
def syncFields (word : UInt32) : UInt32 × UInt32 × UInt32 :=
  (word >>> 16, (word >>> 8) &&& 0xff, word &&& 0xff)

/-- The two fields of `SIZE_REG`. -/
def sizeFields (word : UInt32) : UInt32 × UInt32 :=
  (word >>> 16, word &&& 0xffff)

/-- The registers say what the mode says. -/
structure Encodes (w : Written) (var : FbVarScreeninfo) : Prop where
  hsync : syncFields w.hsyncReg = (var.hsyncLen, var.leftMargin, var.rightMargin)
  vsync : syncFields w.vsyncReg = (var.vsyncLen, var.upperMargin, var.lowerMargin)
  size : sizeFields w.sizeReg = (var.xres, var.yres)

/-- Each timing has no more bits than its place in the register. -/
structure Narrow (var : FbVarScreeninfo) : Prop where
  hsyncLen : var.hsyncLen.toNat < 2 ^ 16
  leftMargin : var.leftMargin.toNat < 2 ^ 8
  rightMargin : var.rightMargin.toNat < 2 ^ 8
  vsyncLen : var.vsyncLen.toNat < 2 ^ 16
  upperMargin : var.upperMargin.toNat < 2 ^ 8
  lowerMargin : var.lowerMargin.toNat < 2 ^ 8
  xres : var.xres.toNat < 2 ^ 16
  yres : var.yres.toNat < 2 ^ 16

theorem toNat_syncWord (len near far : UInt32) :
    (syncWord len near far).toNat =
      pack [⟨16, len.toNat⟩, ⟨8, near.toNat⟩, ⟨8, far.toNat⟩] % 2 ^ 32 := by
  -- each shift drops what goes out of the word, as the `or` of all would
  rw [pack, pack, pack, pack, Nat.or_mod_two_pow, Nat.or_mod_two_pow]
  simp [syncWord, bits, Nat.or_assoc]

theorem toNat_sizeWord (x y : UInt32) :
    (x <<< 16 ||| y).toNat = pack [⟨16, x.toNat⟩, ⟨16, y.toNat⟩] % 2 ^ 32 := by
  rw [pack, pack, pack, Nat.or_mod_two_pow]
  simp [bits]

/-- What is above the lower half of a word has 16 bits. -/
theorem toNat_shiftRight_half (word : UInt32) :
    (word >>> 16).toNat = word.toNat >>> 16 % 2 ^ 16 := by
  have hword : word.toNat < 2 ^ 16 * 2 ^ 16 := word.toNat_lt
  have htop : word.toNat >>> 16 < 2 ^ 16 := by
    rw [Nat.shiftRight_eq_div_pow]
    exact Nat.div_lt_of_lt_mul hword
  rw [Nat.mod_eq_of_lt htop]
  exact UInt32.toNat_shiftRight ..

theorem toNat_and_byte (word : UInt32) :
    (word &&& 0xff).toNat = word.toNat % 2 ^ 8 :=
  (UInt32.toNat_and ..).trans (Nat.and_two_pow_sub_one_eq_mod _ 8)

theorem toNat_and_half (word : UInt32) :
    (word &&& 0xffff).toNat = word.toNat % 2 ^ 16 :=
  (UInt32.toNat_and ..).trans (Nat.and_two_pow_sub_one_eq_mod _ 16)

theorem syncFields_eq_iff (word len near far : UInt32) :
    syncFields word = (len, near, far) ↔
      unpack [16, 8, 8] word.toNat = [len.toNat, near.toNat, far.toNat] := by
  have hnear : (word >>> 8).toNat = word.toNat >>> 8 := UInt32.toNat_shiftRight ..
  simp only [syncFields, Prod.mk.injEq, ← UInt32.toNat_inj, toNat_shiftRight_half,
    toNat_and_byte, hnear]
  simp [unpack]

theorem sizeFields_eq_iff (word x y : UInt32) :
    sizeFields word = (x, y) ↔ unpack [16, 16] word.toNat = [x.toNat, y.toNat] := by
  simp only [sizeFields, Prod.mk.injEq, ← UInt32.toNat_inj, toNat_shiftRight_half,
    toNat_and_half]
  simp [unpack]

theorem syncFields_syncWord_iff (len near far : UInt32) :
    syncFields (syncWord len near far) = (len, near, far) ↔
      len.toNat < 2 ^ 16 ∧ near.toNat < 2 ^ 8 ∧ far.toNat < 2 ^ 8 := by
  rw [syncFields_eq_iff, toNat_syncWord]
  refine (@unpack_pack_iff [⟨16, len.toNat⟩, ⟨8, near.toNat⟩, ⟨8, far.toNat⟩] 32
    le_rfl).trans ?_
  simp [Field.Fits]

theorem sizeFields_sizeWord_iff (x y : UInt32) :
    sizeFields (x <<< 16 ||| y) = (x, y) ↔ x.toNat < 2 ^ 16 ∧ y.toNat < 2 ^ 16 := by
  rw [sizeFields_eq_iff, toNat_sizeWord]
  refine (@unpack_pack_iff [⟨16, x.toNat⟩, ⟨16, y.toNat⟩] 32 le_rfl).trans ?_
  simp [Field.Fits]

/-- The registers that are set from a mode give it back when its timings are
narrow, and only then. -/
theorem encodes_iff_narrow (info : FbInfo k) (dmaReg : UInt32) :
    Encodes (myfbSetPar info dmaReg).2.1 info.var ↔ Narrow info.var := by
  have hhsync := syncFields_syncWord_iff info.var.hsyncLen info.var.leftMargin
    info.var.rightMargin
  have hvsync := syncFields_syncWord_iff info.var.vsyncLen info.var.upperMargin
    info.var.lowerMargin
  have hsize := sizeFields_sizeWord_iff info.var.xres info.var.yres
  constructor
  · intro h
    obtain ⟨hlen, hleft, hright⟩ := hhsync.mp h.hsync
    obtain ⟨vlen, hupper, hlower⟩ := hvsync.mp h.vsync
    obtain ⟨hx, hy⟩ := hsize.mp h.size
    exact ⟨hlen, hleft, hright, vlen, hupper, hlower, hx, hy⟩
  · intro h
    exact
      { hsync := hhsync.mpr ⟨h.hsyncLen, h.leftMargin, h.rightMargin⟩
        vsync := hvsync.mpr ⟨h.vsyncLen, h.upperMargin, h.lowerMargin⟩
        size := hsize.mpr ⟨h.xres, h.yres⟩ }

/-! ## What the check does to the timings -/

/-- The color format is no timing. -/
theorem narrow_setColors_iff (var : FbVarScreeninfo) :
    Narrow var.setColors ↔ Narrow var := by
  unfold FbVarScreeninfo.setColors
  split
  · exact ⟨fun h => { h with }, fun h => { h with }⟩
  · exact Iff.rfl

/-- A resolution that is rounded up was narrow before. -/
theorem narrow_roundUp_iff (var : FbVarScreeninfo) :
    Narrow var.roundUp ↔ Narrow var := by
  -- a resolution below 64 is narrow, and so is 64
  have hround (res : UInt32) :
      (if res < 64 then 64 else res).toNat < 2 ^ 16 ↔ res.toNat < 2 ^ 16 := by
    split
    case isTrue h =>
      have hres : res.toNat < 64 := h
      exact ⟨fun _ => by omega, fun _ => by decide⟩
    case isFalse => exact Iff.rfl
  constructor
  · intro h
    exact { h with xres := (hround _).mp h.xres, yres := (hround _).mp h.yres }
  · intro h
    exact { h with xres := (hround _).mpr h.xres, yres := (hround _).mpr h.yres }

/-- The registers give back the mode that the check leaves exactly when the mode
that came to it is narrow: the check does not turn a wide mode away, and does not
cut it. -/
theorem timings_encoded_iff (info : FbInfo k) (var : FbVarScreeninfo)
    (dmaReg : UInt32) :
    Encodes (myfbSetPar (info.checked var) dmaReg).2.1 (myfbCheckVar var).2 ↔
      Narrow var := by
  have hchecked : Narrow (myfbCheckVar var).2 ↔ Narrow var :=
    (narrow_setColors_iff _).trans (narrow_roundUp_iff var)
  exact (encodes_iff_narrow (info.checked var) dmaReg).trans hchecked

/-- A left margin of 256 is read back as a sync duration of 97 and no margin. -/
theorem wide_margin_in_sync :
    (myfbCheckVar wideMargin).1 = 0 ∧
      syncFields (myfbSetPar (board.checked wideMargin) 0).2.1.hsyncReg = (97, 0, 16) ∧
      ¬ Encodes (myfbSetPar (board.checked wideMargin) 0).2.1
        (myfbCheckVar wideMargin).2 := by
  have hread : syncFields (myfbSetPar (board.checked wideMargin) 0).2.1.hsyncReg =
      (97, 0, 16) := by decide +kernel
  refine ⟨rfl, hread, fun h => ?_⟩
  have hlen := congrArg Prod.fst (hread.symm.trans h.hsync)
  exact absurd hlen (by decide +kernel)

/-! ## The start of the screen -/

/-- The start that is programmed is the one that the line length of `fix` and the
offsets of the mode give. -/
def StartAgrees (w : Written) (fix : FbFixScreeninfo k) (var : FbVarScreeninfo) :
    Prop :=
  w.rawWritel.1.toNat =
    fix.smemStart.toNat + var.yoffset.toNat * fix.lineLength.toNat +
      var.xoffset.toNat * var.bitsPerPixel.toNat / 8

namespace FbVarScreeninfo

/-- The bits of a row, as far as 32 bits hold them. -/
def rowBits (var : FbVarScreeninfo) : Nat :=
  var.xresVirtual.toNat * var.bitsPerPixel.toNat % 2 ^ 32

/-- The whole bytes of each row above the start, and of the pixels left of it. -/
def wholeBytes (var : FbVarScreeninfo) : Nat :=
  var.yoffset.toNat * (var.rowBits / 8) +
    var.xoffset.toNat * var.bitsPerPixel.toNat / 8

/-- The bits that these rows and pixels have beyond their whole bytes. -/
def leftoverBits (var : FbVarScreeninfo) : Nat :=
  var.yoffset.toNat * (var.rowBits % 8) +
    var.xoffset.toNat * var.bitsPerPixel.toNat % 8

end FbVarScreeninfo

/-- The leftover bits make no byte together (or so many that 32 bits do not show
them), and the offset in bits and the start itself are below `2 ^ 32`. -/
structure Pannable (smemStart : Nat) (var : FbVarScreeninfo) : Prop where
  leftover : 2 ^ 29 ∣ var.leftoverBits / 8
  offset : var.wholeBytes < 2 ^ 29
  start : smemStart + var.wholeBytes < 2 ^ 32

/-- Pixels of whole bytes leave no bits over. -/
theorem pannable_iff_of_dvd {var : FbVarScreeninfo} {smemStart : Nat}
    (h : 8 ∣ var.bitsPerPixel.toNat) :
    Pannable smemStart var ↔
      var.wholeBytes < 2 ^ 29 ∧ smemStart + var.wholeBytes < 2 ^ 32 := by
  have hrow : var.rowBits % 8 = 0 := by
    have hdvd : 8 ∣ 2 ^ 32 := by decide
    unfold FbVarScreeninfo.rowBits
    rw [Nat.mod_mod_of_dvd _ hdvd]
    exact Nat.mod_eq_zero_of_dvd (h.mul_left _)
  have hleft : var.leftoverBits = 0 := by
    unfold FbVarScreeninfo.leftoverBits
    rw [hrow, Nat.mul_zero, Nat.zero_add]
    exact Nat.mod_eq_zero_of_dvd (h.mul_left _)
  constructor
  · exact fun hpan => ⟨hpan.offset, hpan.start⟩
  · rintro ⟨hoffset, hstart⟩
    refine ⟨?_, hoffset, hstart⟩
    rw [hleft]
    exact Nat.dvd_zero _

/-- Whole bytes and leftover bits are all the bits before the start. -/
theorem wholeBytes_leftoverBits (var : FbVarScreeninfo) :
    8 * var.wholeBytes + var.leftoverBits =
      var.yoffset.toNat * var.rowBits +
        var.xoffset.toNat * var.bitsPerPixel.toNat := by
  have hrow := Nat.div_add_mod var.rowBits 8
  have hleft := Nat.div_add_mod (var.xoffset.toNat * var.bitsPerPixel.toNat) 8
  calc
    8 * var.wholeBytes + var.leftoverBits =
        var.yoffset.toNat * (8 * (var.rowBits / 8) + var.rowBits % 8) +
          (8 * (var.xoffset.toNat * var.bitsPerPixel.toNat / 8) +
            var.xoffset.toNat * var.bitsPerPixel.toNat % 8) := by
      unfold FbVarScreeninfo.wholeBytes FbVarScreeninfo.leftoverBits
      ring
    _ = var.yoffset.toNat * var.rowBits +
        var.xoffset.toNat * var.bitsPerPixel.toNat := by rw [hrow, hleft]

/-- The product of the source, in 32 bits. -/
theorem toNat_offsetBits (var : FbVarScreeninfo) :
    ((var.yoffset * var.xresVirtual + var.xoffset) * var.bitsPerPixel).toNat =
      (8 * var.wholeBytes + var.leftoverBits) % 2 ^ 32 := by
  rw [wholeBytes_leftoverBits, UInt32.toNat_mul, UInt32.toNat_add, UInt32.toNat_mul,
    FbVarScreeninfo.rowBits]
  generalize var.yoffset.toNat = y, var.xresVirtual.toNat = row,
    var.xoffset.toNat = x, var.bitsPerPixel.toNat = bits
  -- wrapping at any place gives the same residue
  calc
    (y * row % 2 ^ 32 + x) % 2 ^ 32 * bits % 2 ^ 32 =
        (y * row % 2 ^ 32 + x) * bits % 2 ^ 32 := Nat.mod_mul_mod ..
    _ = (y * row % 2 ^ 32 * bits + x * bits) % 2 ^ 32 := by rw [Nat.add_mul]
    _ = (y * row * bits + x * bits) % 2 ^ 32 :=
      ((Nat.mod_modEq ..).mul_right bits).add_right _
    _ = (y * (row * bits) + x * bits) % 2 ^ 32 := by rw [Nat.mul_assoc]
    _ = (y * (row * bits % 2 ^ 32) + x * bits) % 2 ^ 32 :=
      (((Nat.mod_modEq ..).mul_left y).add_right _).symm

/-- The offset that is added to the start of the memory. -/
theorem toNat_offset (var : FbVarScreeninfo) :
    ((var.yoffset * var.xresVirtual + var.xoffset) * var.bitsPerPixel / 8).toNat =
      (var.wholeBytes + var.leftoverBits / 8) % 2 ^ 29 := by
  have hsplit : (2 : Nat) ^ 32 = 8 * 2 ^ 29 := rfl
  rw [UInt32.toNat_div, toNat_offsetBits, hsplit]
  refine (Nat.mod_mul_right_div_self ..).trans ?_
  rw [Nat.mul_add_div (by decide)]

/-- A sum of `unsigned long` cut to a word. -/
theorem toNat_setWidth_add (start : BitVec (32 + k)) (offset : UInt32) :
    ((start + offset.toBitVec.setWidth (32 + k)).setWidth 32).toNat =
      (start.toNat + offset.toNat) % 2 ^ 32 := by
  have hdvd : 2 ^ 32 ∣ 2 ^ (32 + k) := Nat.pow_dvd_pow 2 (Nat.le_add_right ..)
  have hwide : offset.toNat < 2 ^ (32 + k) :=
    offset.toNat_lt.trans_le (Nat.le_of_dvd (Nat.two_pow_pos _) hdvd)
  simp only [BitVec.toNat_setWidth, BitVec.toNat_add, UInt32.toNat_toBitVec]
  rw [Nat.mod_mod_of_dvd _ hdvd, Nat.mod_eq_of_lt hwide]

/-- The word that is written as the start. -/
theorem toNat_rawWritel (info : FbInfo k) (dmaReg : UInt32) :
    (myfbSetPar info dmaReg).2.1.rawWritel.1.toNat =
      (info.fix.smemStart.toNat +
        (info.var.wholeBytes + info.var.leftoverBits / 8) % 2 ^ 29) % 2 ^ 32 := by
  rw [← toNat_offset]
  exact toNat_setWidth_add ..

theorem toNat_lineLength (info : FbInfo k) (dmaReg : UInt32) :
    (myfbSetPar info dmaReg).2.2.lineLength.toNat = info.var.rowBits / 8 := by
  unfold FbVarScreeninfo.rowBits
  rw [← UInt32.toNat_mul]
  exact UInt32.toNat_div ..

theorem startAgrees_iff_pannable (info : FbInfo k) (dmaReg : UInt32) :
    StartAgrees (myfbSetPar info dmaReg).2.1 (myfbSetPar info dmaReg).2.2 info.var ↔
      Pannable info.fix.smemStart.toNat info.var := by
  have hwhole : info.fix.smemStart.toNat +
      info.var.yoffset.toNat * (info.var.rowBits / 8) +
        info.var.xoffset.toNat * info.var.bitsPerPixel.toNat / 8 =
      info.fix.smemStart.toNat + info.var.wholeBytes := Nat.add_assoc ..
  have hfix : (myfbSetPar info dmaReg).2.2.smemStart = info.fix.smemStart := rfl
  unfold StartAgrees
  rw [toNat_rawWritel, toNat_lineLength, hfix, hwhole]
  constructor
  · intro h
    -- The two offsets are congruent and both below `2 ^ 32`.
    have hsame : (info.var.wholeBytes + info.var.leftoverBits / 8) % 2 ^ 29 =
        info.var.wholeBytes := by omega
    exact ⟨by omega, by omega, by omega⟩
  · rintro ⟨hleftover, hoffset, hstart⟩
    have hsame : (info.var.wholeBytes + info.var.leftoverBits / 8) % 2 ^ 29 =
        info.var.wholeBytes := by omega
    rw [hsame, Nat.mod_eq_of_lt hstart]

/-- The check leaves all that the start depends on. -/
theorem pannable_checked_iff (smemStart : Nat) (var : FbVarScreeninfo) :
    Pannable smemStart (myfbCheckVar var).2 ↔ Pannable smemStart var := by
  unfold myfbCheckVar FbVarScreeninfo.setColors
  split
  · exact ⟨fun h => ⟨h.leftover, h.offset, h.start⟩,
      fun h => ⟨h.leftover, h.offset, h.start⟩⟩
  · exact ⟨fun h => ⟨h.leftover, h.offset, h.start⟩,
      fun h => ⟨h.leftover, h.offset, h.start⟩⟩

/-- The start that is programmed agrees with the line length exactly when the
rows and pixels before it leave no byte over and both formulas stay in range.
The check has no part in it. -/
theorem start_agrees_iff (info : FbInfo k) (var : FbVarScreeninfo)
    (dmaReg : UInt32) :
    StartAgrees (myfbSetPar (info.checked var) dmaReg).2.1
        (myfbSetPar (info.checked var) dmaReg).2.2 (myfbCheckVar var).2 ↔
      Pannable info.fix.smemStart.toNat var :=
  (startAgrees_iff_pannable (info.checked var) dmaReg).trans
    (pannable_checked_iff _ var)

/-- Two rows of 641 pixels of half a byte are 641 bytes, and two lines of 320 bytes
are 640. -/
theorem odd_row_off_by_byte :
    (myfbCheckVar oddRow).1 = 0 ∧
      (myfbSetPar (board.checked oddRow) 0).2.1.rawWritel.1 = 0xc0000000 + 641 ∧
      (myfbSetPar (board.checked oddRow) 0).2.2.lineLength = 320 ∧
      ¬ StartAgrees (myfbSetPar (board.checked oddRow) 0).2.1
        (myfbSetPar (board.checked oddRow) 0).2.2 (myfbCheckVar oddRow).2 := by
  refine ⟨rfl, by decide +kernel, by decide +kernel, ?_⟩
  unfold StartAgrees
  decide +kernel

end Framebuffer
end KernelDrivers
