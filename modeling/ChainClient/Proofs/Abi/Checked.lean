import ChainClient.Proofs.Abi.Decode
import ChainClient.Proofs.Bytes.Number

/-!
# `ChainClient.Proofs.Abi.Checked` — unpacking with numbers of 64 bits

The unpacker reads offsets and lengths from data that nobody vouches for, and its numbers have no
bound. This module counts with words of 64 bits instead: sums that leave them, narrowings that lose
bits and cuts beyond the end of a byte string all stop the unpacker, each in its own way. None of
them ever happens, whatever the data are, as long as a region has fewer than `2 ^ 63` bytes: a sum
is only formed of an offset and a length that earlier checks have put inside the region.

## Contents
- **Machine numbers.** `Stop` is what can stop an unpacker; `add`, `narrow`, `cut` and `byteAt` are
  the steps that may. Capped sums and products never stop.
- **The unpacker on machine numbers.** `decodeValue`, `decodeFields` and `decode`, in the namespace
  `Checked`, over readers of their own.
- **Agreement.** `Agree` relates a run on machine numbers to a run on numbers without a bound: both
  return the same, or both refuse the data for the same reason, and then no offset is said to be out
  of range that is not. One law a reader, from `agree_bytesUpTo` to `agree_startOf`, and
  `agree_decodeFields` for heads in a row. `toNat_headLength` is why heads stand in the same places.
- **Values and data.** `isChecked_of_wellFormed` by induction on the type, and
  `decode_eq_mapError_decode` for data.
-/

namespace ChainClient

namespace Abi

open AbiType (maxOffset)

namespace Checked

/-! ## Machine numbers -/

/-- What stops an unpacker that counts with 64 bits. -/
inductive Stop where
  /-- A sum takes more than 64 bits. -/
  | overflow
  /-- A number that is narrowed takes more than 64 bits. -/
  | narrowing
  /-- A byte string is cut or indexed beyond its end. -/
  | outside
  /-- The data are refused. -/
  | refused (e : AbiError)

/-- A sum that has to fit. -/
def add (a b : UInt64) : Except Stop UInt64 :=
  if a.toNat + b.toNat < UInt64.size then .ok (a + b) else .error .overflow

/-- A number that has to fit. -/
def narrow (n : Nat) : Except Stop UInt64 :=
  if n < UInt64.size then .ok (UInt64.ofNat n) else .error .narrowing

/-- The greatest number. -/
def greatest : UInt64 := UInt64.ofNat maxOffset

/-- A sum, or the greatest number if it does not fit. -/
def addCapped (a b : UInt64) : UInt64 :=
  if a.toNat + b.toNat < UInt64.size then a + b else greatest

/-- A product, or the greatest number if it does not fit. -/
def mulCapped (a b : UInt64) : UInt64 :=
  if a.toNat * b.toNat < UInt64.size then a * b else greatest

/-- The bytes from one index up to another, if the byte string has them. -/
def cut? (bs : Bytes) (start stop : Nat) : Option Bytes :=
  if start ≤ stop ∧ stop ≤ bs.length then some ((bs.drop start).take (stop - start)) else none

/-- The bytes from one index up to another, which the byte string has to have. -/
def cut (bs : Bytes) (start stop : Nat) : Except Stop Bytes :=
  match cut? bs start stop with
  | some piece => .ok piece
  | none => .error .outside

/-- The byte at an index, which the byte string has to have. -/
def byteAt (bs : Bytes) (i : Nat) : Except Stop UInt8 :=
  match bs[i]? with
  | some b => .ok b
  | none => .error .outside

/-! ## The unpacker on machine numbers -/

/-- The bytes from one index up to another; data without them are refused. -/
def bytesUpTo (region : Bytes) (start stop : UInt64) : Except Stop Bytes :=
  match cut? region start.toNat stop.toNat with
  | some bs => .ok bs
  | none => .error (.refused (.outOfRange stop.toNat region.length))

/-- The 32 bytes at an offset. -/
def wordAt (region : Bytes) (offset : UInt64) : Except Stop Bytes :=
  bytesUpTo region offset (addCapped offset 32)

/-- The pointer or length at an offset. One that is too great is reported with its low 64 bits, if
    it has no others, and else as the greatest number. -/
def offsetAt (region : Bytes) (offset : UInt64) : Except Stop UInt64 := do
  let n := Bytes.value (← wordAt region offset)
  if n ≤ region.length then narrow n
  else
    let needed := if n < UInt64.size then UInt64.ofNat n else greatest
    throw (.refused (.outOfRange needed.toNat region.length))

/-- The region from an offset on. -/
def regionFrom (region : Bytes) (offset : UInt64) : Except Stop Bytes :=
  match cut? region offset.toNat region.length with
  | some body => .ok body
  | none => .error (.refused (.outOfRange offset.toNat region.length))

/-- The byte string at an offset, behind its length. -/
def bytesAt (region : Bytes) (offset : UInt64) : Except Stop Bytes := do
  let length ← offsetAt region offset
  let start ← add offset 32
  let stop ← add start length
  bytesUpTo region start stop

mutual

/-- The number of bytes that a type takes up in a head, capped at every product and sum. -/
def headLength : AbiType → UInt64
  | .fixedArray element size =>
    if element.isDynamic then 32 else mulCapped (headLength element) (UInt64.ofNat size)
  | .tuple fields => if AbiType.anyDynamic fields then 32 else headLengths fields 0
  | _ => 32

/-- The number of bytes that several types take up in a head, on top of those before. -/
def headLengths : List AbiType → (sum : UInt64) → UInt64
  | [], sum => sum
  | type :: types, sum => headLengths types (addCapped sum (headLength type))

end

/-- Whether the heads of `count` elements fit the region. -/
def ensureFits (element : AbiType) (count : UInt64) (region : Bytes) : Except Stop Unit :=
  let needed := mulCapped count (headLength element)
  if needed.toNat ≤ region.length then .ok ()
  else .error (.refused (.outOfRange needed.toNat region.length))

/-- Applies a reader at `count` places, each as far from the last as a head is long. -/
def readEach (type : AbiType) (read : UInt64 → Except Stop AbiValue) :
    (count : Nat) → (head : UInt64) → Except Stop (List AbiValue)
  | 0, _ => return []
  | count + 1, head => do
    let value ← read head
    let values ← readEach type read count (addCapped head (headLength type))
    return value :: values

/-- Where the encoding of a value starts whose head is given. -/
def startOf (type : AbiType) (region : Bytes) (head : UInt64) : Except Stop UInt64 :=
  if type.isDynamic then offsetAt region head else .ok head

mutual

/-- The value of a type whose encoding starts at an offset of a region. -/
def decodeValue : AbiType → (region : Bytes) → (offset : UInt64) → Except Stop AbiValue
  | .address, region, offset => do
    let word ← wordAt region offset
    return .address (.fit (← cut word 12 word.length))
  | .uint bits, region, offset => do
    let n := Word.ofBytes (← wordAt region offset)
    if n.toNat < bitBound bits then return .uint n
    else throw (.refused (.integerOverflow (AbiType.uint bits).text n.text))
  | .int bits, region, offset => do
    let i := SignedWord.ofWord (Word.ofBytes (← wordAt region offset))
    if i.fitsIn bits then return .int i
    else throw (.refused (.integerOverflow (AbiType.int bits).text i.text))
  | .bool, region, offset => do
    let word ← wordAt region offset
    let front ← cut word 0 31
    let last ← byteAt word 31
    if front.all (· == 0) && last ≤ 1 then return .bool (last == 1)
    else throw (.refused (.invalidData "bool word is neither 0 nor 1"))
  | .fixedBytes size, region, offset => do
    let word ← wordAt region offset
    let padding ← cut word size word.length
    if padding.all (· == 0) then return .fixedBytes (← cut word 0 size)
    else
      throw (.refused (.invalidData ("non-zero padding after " ++ (AbiType.fixedBytes size).text)))
  | .bytes, region, offset => return .bytes (← bytesAt region offset)
  | .string, region, offset => do
    match Utf8.read (← bytesAt region offset) with
    | .ok s => return .string s
    | .error fault => throw (.refused (.invalidData ("invalid UTF-8: " ++ fault.message)))
  | .array element, region, offset => do
    let count ← offsetAt region offset
    let body ← regionFrom region (← add offset 32)
    ensureFits element count body
    let values ← readEach element
      (fun head => do decodeValue element body (← startOf element body head)) count.toNat 0
    return .array values
  | .fixedArray element size, region, offset => do
    let body ← regionFrom region offset
    ensureFits element (← narrow size) body
    let values ← readEach element
      (fun head => do decodeValue element body (← startOf element body head)) size 0
    return .fixedArray values
  | .tuple types, region, offset => do
    let body ← regionFrom region offset
    return .tuple (← decodeFields types body 0)

/-- The values of several types, the first of which has its head at an offset of a region. -/
def decodeFields : List AbiType → (region : Bytes) → (head : UInt64) → Except Stop (List AbiValue)
  | [], _, _ => return []
  | type :: types, region, head => do
    let value ← decodeValue type region (← startOf type region head)
    let values ← decodeFields types region (addCapped head (headLength type))
    return value :: values

end

/-- The values of several types that are packed at the start of the data. -/
def decode (types : List AbiType) (data : Bytes) : Except Stop (List AbiValue) :=
  decodeFields types data 0

/-! ## Agreement -/

/-- An error that says no offset to be out of range that is not, in a region of at most `limit`
    bytes. -/
def IsWithin (limit : Nat) (e : AbiError) : Prop :=
  ∀ needed available, e = .outOfRange needed available → available < needed ∧ available ≤ limit

/-- **Agreement of two runs**, one of them on machine numbers: they return related results, or they
    refuse the data for the same reason. The other ways to stop are left out. -/
inductive Agree {α β : Type} (limit : Nat) (R : α → β → Prop) :
    Except Stop α → Except AbiError β → Prop where
  | ok {a : α} {b : β} (h : R a b) : Agree limit R (.ok a) (.ok b)
  | refused {e : AbiError} (h : IsWithin limit e) : Agree limit R (.error (.refused e)) (.error e)

variable {α β γ δ : Type} {limit : Nat} {R : α → β → Prop} {S : γ → δ → Prop}

namespace Agree

/-- Steps in a row agree if each agrees with its counterpart. -/
theorem bind {x : Except Stop α} {y : Except AbiError β} {f : α → Except Stop γ}
    {g : β → Except AbiError δ} (h : Agree limit R x y)
    (hnext : ∀ a b, R a b → y = .ok b → Agree limit S (f a) (g b)) :
    Agree limit S (x >>= f) (y >>= g) := by
  cases h with
  | ok hab => exact hnext _ _ hab rfl
  | refused he => exact .refused he

/-- Steps that agree on what they return. -/
theorem bind_eq {x : Except Stop α} {y : Except AbiError α} {f : α → Except Stop γ}
    {g : α → Except AbiError δ} (h : Agree limit Eq x y)
    (hnext : ∀ a, y = .ok a → Agree limit S (f a) (g a)) : Agree limit S (x >>= f) (y >>= g) :=
  h.bind fun a b hab hy => by
    cases hab
    exact hnext a hy

/-- A step that cannot stop. -/
theorem of_ok {a : α} {f : α → Except Stop γ} {y : Except AbiError δ} {x : Except Stop α}
    (hx : x = .ok a) (h : Agree limit S (f a) y) : Agree limit S (x >>= f) y := by
  rw [hx]
  exact h

/-- A check that both make. -/
theorem ite {p : Prop} [Decidable p] {x x' : Except Stop α} {y y' : Except AbiError β}
    (h : p → Agree limit R x y) (h' : ¬ p → Agree limit R x' y') :
    Agree limit R (if p then x else x') (if p then y else y') := by
  split
  · next hp => exact h hp
  · next hp => exact h' hp

theorem mono {limit' : Nat} {x : Except Stop α} {y : Except AbiError β} (h : Agree limit R x y)
    (hle : limit ≤ limit') : Agree limit' R x y := by
  cases h with
  | ok hab => exact .ok hab
  | refused he =>
    refine .refused fun needed available heq => ?_
    obtain ⟨hlt, havailable⟩ := he needed available heq
    exact ⟨hlt, Nat.le_trans havailable hle⟩

/-- Runs that agree on what they return are the same, up to the kind of their errors. -/
theorem eq_mapError {x : Except Stop α} {y : Except AbiError α} (h : Agree limit Eq x y) :
    x = y.mapError .refused := by
  cases h with
  | ok hab => rw [hab]; rfl
  | refused => rfl

/-- A refusal says no offset to be out of range that is not. -/
theorem isWithin {x : Except Stop α} {e : AbiError}
    (h : Agree limit R x (.error e : Except AbiError β)) : IsWithin limit e := by
  cases h with
  | refused he => exact he

end Agree

/-! ### Numbers -/

theorem toNat_ofNat {n : Nat} (h : n ≤ maxOffset) : (UInt64.ofNat n).toNat = n :=
  UInt64.toNat_ofNat_of_lt' (Nat.lt_of_le_of_lt h (by decide))

theorem toNat_greatest : greatest.toNat = maxOffset := toNat_ofNat (Nat.le_refl maxOffset)

theorem toNat_addCapped (a b : UInt64) :
    (addCapped a b).toNat = min (a.toNat + b.toNat) maxOffset := by
  have hmax : maxOffset + 1 = UInt64.size := by decide
  unfold addCapped
  split
  · next h =>
    rw [UInt64.toNat_add, Nat.mod_eq_of_lt h]
    omega
  · rw [toNat_greatest]
    omega

theorem toNat_mulCapped (a b : UInt64) :
    (mulCapped a b).toNat = min (a.toNat * b.toNat) maxOffset := by
  have hmax : maxOffset + 1 = UInt64.size := by decide
  unfold mulCapped
  split
  · next h =>
    rw [UInt64.toNat_mul, Nat.mod_eq_of_lt h]
    omega
  · rw [toNat_greatest]
    omega

theorem toNat_headLengths {types : List AbiType}
    (h : ∀ type ∈ types, (headLength type).toNat = type.headLength) (sum : UInt64) :
    (headLengths types sum).toNat = min (sum.toNat + AbiType.headSizes types) maxOffset := by
  induction types generalizing sum with
  | nil =>
    have hsum : sum.toNat < maxOffset + 1 := sum.toNat_lt
    rw [headLengths, AbiType.headSizes]
    omega
  | cons type types ih =>
    obtain ⟨htype, htypes⟩ := List.forall_mem_cons.mp h
    rw [headLengths, AbiType.headSizes, ih htypes, toNat_addCapped, htype, AbiType.headLength]
    omega

/-- A product of a capped number is capped like the product. -/
theorem min_min_mul (n count cap : Nat) : min (min n cap * count) cap = min (n * count) cap := by
  rcases Nat.eq_zero_or_pos count with rfl | hpos
  · rw [Nat.mul_zero, Nat.mul_zero]
  · rcases Nat.le_total n cap with hle | hle
    · rw [Nat.min_eq_left hle]
    · have hcap : cap ≤ cap * count := Nat.le_mul_of_pos_right cap hpos
      have hn : cap * count ≤ n * count := Nat.mul_le_mul_right count hle
      rw [Nat.min_eq_right hle]
      omega

/-- **Head lengths** are capped at every step with the same result as at the end. -/
theorem toNat_headLength {type : AbiType} (hwf : type.WellFormed) :
    (headLength type).toNat = type.headLength := by
  have h32 : ((32 : UInt64).toNat = min 32 maxOffset) := by decide
  induction hwf with
  | @fixedArray element size hsize _ ih =>
    rw [headLength, AbiType.headLength, AbiType.headSize]
    split
    · exact h32
    · rw [toNat_mulCapped, ih, toNat_ofNat hsize.2, AbiType.headLength, min_min_mul]
  | @tuple fields _ ih =>
    rw [headLength, AbiType.headLength, AbiType.headSize]
    split
    · exact h32
    · rw [toNat_headLengths ih, UInt64.toNat_zero, Nat.zero_add]
  | address | uint | int | bool | bytes | fixedBytes | string | array => exact h32

/-- The next head is the same on both sides. -/
theorem toNat_nextHead {type : AbiType} (hwf : type.WellFormed) (head : UInt64) :
    (addCapped head (headLength type)).toNat = nextHead head.toNat type := by
  rw [toNat_addCapped, toNat_headLength hwf]
  rfl

theorem narrow_eq_ok {n : Nat} (h : n ≤ maxOffset) : narrow n = .ok (UInt64.ofNat n) :=
  if_pos (Nat.lt_of_le_of_lt h (by decide))

theorem add_eq_ok {a b : UInt64} (h : a.toNat + b.toNat ≤ maxOffset) :
    add a b = .ok (a + b) ∧ (a + b).toNat = a.toNat + b.toNat := by
  have hlt : a.toNat + b.toNat < UInt64.size := Nat.lt_of_le_of_lt h (by decide)
  exact ⟨if_pos hlt, by rw [UInt64.toNat_add, Nat.mod_eq_of_lt hlt]⟩

theorem cut?_eq_some {bs : Bytes} {start stop : Nat} (hle : start ≤ stop)
    (hstop : stop ≤ bs.length) :
    cut? bs start stop = some ((bs.drop start).take (stop - start)) :=
  if_pos ⟨hle, hstop⟩

theorem cut?_eq_none {bs : Bytes} {start stop : Nat} (h : ¬ (start ≤ stop ∧ stop ≤ bs.length)) :
    cut? bs start stop = none :=
  if_neg h

theorem cut?_back {bs : Bytes} {start : Nat} (h : start ≤ bs.length) :
    cut? bs start bs.length = some (bs.drop start) := by
  rw [cut?_eq_some h (Nat.le_refl _), List.take_of_length_le (Nat.le_of_eq List.length_drop)]

theorem cut_back {bs : Bytes} {start : Nat} (h : start ≤ bs.length) :
    cut bs start bs.length = .ok (bs.drop start) := by
  rw [cut, cut?_back h]

theorem cut_front {bs : Bytes} {stop : Nat} (h : stop ≤ bs.length) :
    cut bs 0 stop = .ok (bs.take stop) := by
  rw [cut, cut?_eq_some (Nat.zero_le _) h]
  rfl

/-! ### Readers -/

variable {region : Bytes}

theorem isWithin_outOfRange {needed available : Nat} (h : available < needed) :
    IsWithin available (.outOfRange needed available) := by
  intro needed' available' heq
  cases heq
  exact ⟨h, Nat.le_refl _⟩

theorem isWithin_integerOverflow (type value : String) :
    IsWithin limit (.integerOverflow type value) := by
  intro needed available h
  cases h

theorem isWithin_invalidData (message : String) : IsWithin limit (.invalidData message) := by
  intro needed available h
  cases h

/-- Bytes up to an index, which may be capped. -/
theorem agree_bytesUpTo (start stop : UInt64) {n : Nat} (hlen : region.length < 2 ^ 63)
    (hle : start.toNat ≤ n) (hstop : stop.toNat = min n maxOffset) :
    Agree region.length Eq (bytesUpTo region start stop)
      (if n ≤ region.length then .ok ((region.drop start.toNat).take (n - start.toNat))
        else .error (.outOfRange (min n maxOffset) region.length)) := by
  have hmax : 2 ^ 63 ≤ maxOffset := by decide
  unfold bytesUpTo
  by_cases hn : n ≤ region.length
  · have heq : stop.toNat = n := by omega
    rw [if_pos hn, heq, cut?_eq_some hle hn]
    exact .ok rfl
  · rw [if_neg hn, cut?_eq_none (by omega), hstop]
    exact .refused (isWithin_outOfRange (by omega))

theorem agree_wordAt (hlen : region.length < 2 ^ 63) (offset : UInt64) :
    Agree region.length Eq (wordAt region offset) (Abi.wordAt region offset.toNat) := by
  have h := agree_bytesUpTo offset (addCapped offset 32) hlen (Nat.le_add_right offset.toNat 32)
    (toNat_addCapped offset 32)
  rwa [Nat.add_sub_cancel_left] at h

theorem agree_offsetAt (hlen : region.length < 2 ^ 63) (offset : UInt64) :
    Agree region.length (fun a b => a.toNat = b) (offsetAt region offset)
      (Abi.offsetAt region offset.toNat) := by
  have hmax : 2 ^ 63 ≤ maxOffset := by decide
  have hsize : maxOffset + 1 = UInt64.size := by decide
  have hbind : Abi.offsetAt region offset.toNat = (do
      let word ← Abi.wordAt region offset.toNat
      if Bytes.value word ≤ region.length then .ok (Bytes.value word)
      else .error (.outOfRange (min (Bytes.value word) maxOffset) region.length)) := by
    rw [Abi.offsetAt]
    cases Abi.wordAt region offset.toNat <;> rfl
  rw [hbind]
  refine (agree_wordAt hlen offset).bind_eq fun word _ => ?_
  refine .ite (fun hle => ?_) fun hgt => ?_
  · rw [narrow_eq_ok (by omega)]
    exact .ok (toNat_ofNat (by omega))
  · -- a number of 64 bits is reported as it is, and a greater one as the greatest
    have hneeded : (if Bytes.value word < UInt64.size then UInt64.ofNat (Bytes.value word)
        else greatest).toNat = min (Bytes.value word) maxOffset := by
      split
      · rw [toNat_ofNat (by omega)]
        omega
      · rw [toNat_greatest]
        omega
    rw [← hneeded]
    exact .refused (isWithin_outOfRange (by omega))

theorem agree_regionFrom (offset : UInt64) :
    Agree region.length Eq (regionFrom region offset) (Abi.regionFrom region offset.toNat) := by
  unfold regionFrom Abi.regionFrom
  by_cases hle : offset.toNat ≤ region.length
  · rw [cut?_back hle, if_pos hle]
    exact .ok rfl
  · rw [cut?_eq_none fun h => hle h.1, if_neg hle]
    exact .refused (isWithin_outOfRange (by omega))

theorem agree_bytesAt (hlen : region.length < 2 ^ 63) (offset : UInt64) :
    Agree region.length Eq (bytesAt region offset) (Abi.bytesAt region offset.toNat) := by
  have hmax : 2 ^ 63 + 2 ^ 63 = maxOffset + 1 := by decide
  have h32 : (32 : UInt64).toNat = 32 := rfl
  have hbind : Abi.bytesAt region offset.toNat = (do
      let length ← Abi.offsetAt region offset.toNat
      if offset.toNat + 32 + length ≤ region.length then
        .ok ((region.drop (offset.toNat + 32)).take length)
      else .error (.outOfRange (offset.toNat + 32 + length) region.length)) := by
    rw [Abi.bytesAt]
    cases Abi.offsetAt region offset.toNat <;> rfl
  rw [hbind]
  refine (agree_offsetAt hlen offset).bind fun length n hlength hn => ?_
  -- both sums are of numbers that the region has been found to hold
  obtain ⟨hword, hle⟩ := le_of_offsetAt hn
  obtain ⟨hstart, hstart'⟩ := add_eq_ok (a := offset) (b := 32) (by omega)
  refine .of_ok hstart ?_
  obtain ⟨hstop, hstop'⟩ := add_eq_ok (a := offset + 32) (b := length) (by omega)
  refine .of_ok hstop ?_
  have h := agree_bytesUpTo (offset + 32) (offset + 32 + length) (n := offset.toNat + 32 + n) hlen
    (by omega) (by omega)
  have hcount : offset.toNat + 32 + n - (offset.toNat + 32) = n := by omega
  have hneeded : min (offset.toNat + 32 + n) maxOffset = offset.toNat + 32 + n := by omega
  rwa [hstart', h32, hcount, hneeded] at h

theorem agree_ensureFits {element : AbiType} (hwf : element.WellFormed) (count : UInt64) :
    Agree region.length Eq (ensureFits element count region)
      (Abi.ensureFits element count.toNat region) := by
  unfold ensureFits Abi.ensureFits
  simp only [toNat_mulCapped, toNat_headLength hwf]
  refine .ite (fun _ => .ok rfl) fun hgt => ?_
  exact .refused (isWithin_outOfRange (by omega))

theorem agree_startOf (hlen : region.length < 2 ^ 63) (type : AbiType) (head : UInt64) :
    Agree region.length (fun a b => a.toNat = b) (startOf type region head)
      (Abi.startOf type region head.toNat) :=
  .ite (fun _ => agree_offsetAt hlen head) fun _ => .ok rfl

/-! ### Fields -/

/-- The unpacker agrees with the one on machine numbers about a type, wherever it reads. -/
def IsChecked (type : AbiType) : Prop :=
  ∀ (region : Bytes) (offset : UInt64), region.length < 2 ^ 63 →
    Agree region.length Eq (decodeValue type region offset)
      (Abi.decodeValue type region offset.toNat)

theorem agree_decodeFields {types : List AbiType} (hwf : ∀ type ∈ types, type.WellFormed)
    (h : ∀ type ∈ types, IsChecked type) (hlen : region.length < 2 ^ 63) (head : UInt64) :
    Agree region.length Eq (decodeFields types region head)
      (Abi.decodeFields types region head.toNat) := by
  induction types generalizing head with
  | nil => exact .ok rfl
  | cons type types ih =>
    obtain ⟨hwfFirst, hwfRest⟩ := List.forall_mem_cons.mp hwf
    obtain ⟨hfirst, hrest⟩ := List.forall_mem_cons.mp h
    rw [decodeFields, Abi.decodeFields]
    refine (agree_startOf hlen type head).bind fun start _ hstart _ => ?_
    cases hstart
    refine (hfirst region start hlen).bind_eq fun value _ => ?_
    rw [← toNat_nextHead hwfFirst]
    have hnext := ih hwfRest hrest (addCapped head (headLength type))
    exact hnext.bind_eq fun values _ => .ok rfl

/-- The elements of an array are fields of one type. -/
theorem readEach_eq_decodeFields (element : AbiType) (region : Bytes) (count : Nat)
    (head : UInt64) :
    readEach element (fun head => do decodeValue element region (← startOf element region head))
        count head =
      decodeFields (List.replicate count element) region head := by
  induction count generalizing head with
  | zero => rfl
  | succ count ih =>
    rw [readEach, List.replicate_succ, decodeFields, ih, bind_assoc]

/-- The elements of an array, once their heads are known to fit. -/
theorem agree_elements {element : AbiType} (hwf : element.WellFormed) (h : IsChecked element)
    (hlen : region.length < 2 ^ 63) (count : UInt64) (make : List AbiValue → AbiValue) :
    Agree region.length Eq
      (do
        ensureFits element count region
        let values ← readEach element
          (fun head => do decodeValue element region (← startOf element region head)) count.toNat 0
        return make values)
      (do
        Abi.ensureFits element count.toNat region
        let values ← Abi.readEach element
          (fun head => do Abi.decodeValue element region (← Abi.startOf element region head))
          count.toNat 0
        return make values) := by
  rw [readEach_eq_decodeFields, Abi.readEach_eq_decodeFields]
  refine (agree_ensureFits hwf count).bind fun _ _ _ _ => ?_
  have hwfs : ∀ type ∈ List.replicate count.toNat element, type.WellFormed :=
    fun type htype => List.eq_of_mem_replicate htype ▸ hwf
  have hfields := agree_decodeFields hwfs (fun type htype => List.eq_of_mem_replicate htype ▸ h)
    hlen 0
  exact hfields.bind_eq fun values _ => .ok rfl

/-! ### Values -/

/-- A word below two, byte by byte. -/
theorem value_concat_le_one_iff (front : Bytes) (last : UInt8) :
    Bytes.value (front ++ [last]) ≤ 1 ↔ (front.all (· == 0) && decide (last ≤ 1)) = true := by
  have hlast : last ≤ 1 ↔ last.toNat ≤ 1 := UInt8.le_iff_toNat_le
  rw [Bool.and_eq_true, decide_eq_true_iff, hlast, ← Bytes.value_eq_zero_iff, Bytes.value_concat]
  omega

/-- A word below two is one if its last byte is. -/
theorem beq_one_of_value_le {front : Bytes} {last : UInt8}
    (h : Bytes.value (front ++ [last]) ≤ 1) :
    (last == 1) = (Bytes.value (front ++ [last]) == 1) := by
  rw [Bytes.value_concat] at h ⊢
  have hzero : Bytes.value front = 0 := by omega
  have hlast : last = 1 ↔ last.toNat = 1 := UInt8.toNat_inj.symm
  rw [hzero, Nat.zero_mul, Nat.zero_add, Bool.eq_iff_iff, beq_iff_eq, beq_iff_eq, hlast]

/-- A truth value, the bytes of which are cut out and indexed one by one. -/
theorem isChecked_bool : IsChecked .bool := by
  intro region offset hlen
  rw [decodeValue, Abi.decodeValue]
  refine (agree_wordAt hlen offset).bind_eq fun word hok => ?_
  have h32 := length_of_wordAt hok
  obtain rfl | ⟨front, last, rfl⟩ := List.eq_nil_or_concat' word
  · cases h32
  · have hfront : front.length = 31 := by
      rw [List.length_append] at h32
      exact Nat.add_right_cancel h32
    have hcut : cut (front ++ [last]) 0 31 = .ok front := by
      rw [cut_front (by omega), List.take_left' hfront]
    have hat : byteAt (front ++ [last]) 31 = .ok last := by
      rw [byteAt, ← hfront, List.getElem?_concat_length]
    refine .of_ok hcut (.of_ok hat ?_)
    by_cases hle : Bytes.value (front ++ [last]) ≤ 1
    · rw [if_pos hle, if_pos ((value_concat_le_one_iff front last).mp hle)]
      exact .ok (by rw [beq_one_of_value_le hle])
    · rw [if_neg hle, if_neg (mt (value_concat_le_one_iff front last).mpr hle)]
      exact .refused (isWithin_invalidData _)

/-- **One value.** The induction is on the type; wherever a step of the unpacker could stop, a step
    before it has made sure that it does not. -/
theorem isChecked_of_wellFormed {type : AbiType} (hwf : type.WellFormed) : IsChecked type := by
  induction hwf with
  | address =>
    intro region offset hlen
    rw [decodeValue, Abi.decodeValue]
    refine (agree_wordAt hlen offset).bind_eq fun word hok => ?_
    have h32 := length_of_wordAt hok
    exact .of_ok (cut_back (by omega)) (.ok rfl)
  | uint =>
    intro region offset hlen
    rw [decodeValue, Abi.decodeValue]
    refine (agree_wordAt hlen offset).bind_eq fun word _ => ?_
    exact .ite (fun _ => .ok rfl) fun _ => .refused (isWithin_integerOverflow _ _)
  | int =>
    intro region offset hlen
    rw [decodeValue, Abi.decodeValue]
    refine (agree_wordAt hlen offset).bind_eq fun word _ => ?_
    exact .ite (fun _ => .ok rfl) fun _ => .refused (isWithin_integerOverflow _ _)
  | bool => exact isChecked_bool
  | @fixedBytes size hsize =>
    intro region offset hlen
    rw [decodeValue, Abi.decodeValue]
    refine (agree_wordAt hlen offset).bind_eq fun word hok => ?_
    -- the padding is cut where the type says, which is inside a word
    have h32 := length_of_wordAt hok
    refine .of_ok (cut_back (by omega)) (.ite (fun _ => ?_) fun _ => ?_)
    · exact .of_ok (cut_front (by omega)) (.ok rfl)
    · exact .refused (isWithin_invalidData _)
  | bytes =>
    intro region offset hlen
    rw [decodeValue, Abi.decodeValue]
    exact (agree_bytesAt hlen offset).bind_eq fun bs _ => .ok rfl
  | string =>
    intro region offset hlen
    rw [decodeValue, Abi.decodeValue]
    refine (agree_bytesAt hlen offset).bind_eq fun bs _ => ?_
    cases Utf8.read bs with
    | ok s => exact .ok rfl
    | error fault => exact .refused (isWithin_invalidData _)
  | @array element hwf ih =>
    intro region offset hlen
    rw [decodeValue, Abi.decodeValue]
    refine (agree_offsetAt hlen offset).bind fun count _ hcount hn => ?_
    cases hcount
    -- the word with the count has been read, so that what is behind it starts inside the region
    obtain ⟨hword, _⟩ := le_of_offsetAt hn
    have hmax : 2 ^ 63 ≤ maxOffset := by decide
    have h32 : (32 : UInt64).toNat = 32 := rfl
    obtain ⟨hstart, hstart'⟩ := add_eq_ok (a := offset) (b := 32) (by omega)
    refine .of_ok hstart ?_
    rw [← h32, ← hstart']
    refine (agree_regionFrom (offset + 32)).bind_eq fun body hok => ?_
    have hle := length_of_regionFrom hok
    exact (agree_elements hwf ih (Nat.lt_of_le_of_lt hle hlen) count .array).mono hle
  | @fixedArray element size hsize hwf ih =>
    intro region offset hlen
    rw [decodeValue, Abi.decodeValue]
    refine (agree_regionFrom offset).bind_eq fun body hok => ?_
    have hle := length_of_regionFrom hok
    have helements := agree_elements hwf ih (Nat.lt_of_le_of_lt hle hlen) (UInt64.ofNat size)
      .fixedArray
    rw [toNat_ofNat hsize.2] at helements
    exact .of_ok (narrow_eq_ok hsize.2) (helements.mono hle)
  | @tuple fields hwf ih =>
    intro region offset hlen
    rw [decodeValue, Abi.decodeValue]
    refine (agree_regionFrom offset).bind_eq fun body hok => ?_
    have hle := length_of_regionFrom hok
    have hfields := agree_decodeFields hwf ih (Nat.lt_of_le_of_lt hle hlen) 0
    exact (hfields.mono hle).bind_eq fun values _ => .ok rfl

/-! ## Data -/

/-- **The unpacker never leaves 64 bits**, whatever the data are. With machine numbers it returns
    what it returns with numbers that have no bound, or refuses the data for the same reason; so no
    sum overflows, no pointer or length loses bits and nothing is cut or indexed beyond its end. An
    offset that is said to be out of range is greater than what there is, and no more is said to be
    there than the data have. -/
theorem decode_eq_mapError_decode {types : List AbiType} {data : Bytes}
    (hnamed : ∀ type ∈ types, type.IsNamed) (hlen : data.length < 2 ^ 63) :
    decode types data = (Abi.decode types data).mapError .refused ∧
      ∀ needed available, Abi.decode types data = .error (.outOfRange needed available) →
        available < needed ∧ available ≤ data.length := by
  have hwf : ∀ type ∈ types, type.WellFormed := fun type htype =>
    AbiType.wellFormed_of_isNamed (hnamed type htype)
  have hagree : Agree data.length Eq (decode types data) (Abi.decode types data) :=
    agree_decodeFields hwf (fun type htype => isChecked_of_wellFormed (hwf type htype)) hlen 0
  refine ⟨hagree.eq_mapError, fun needed available herror => ?_⟩
  exact (herror ▸ hagree).isWithin needed available rfl

set_option maxRecDepth 4000 in
/-- A byte string inside a tuple that claims the greatest length a word can hold. -/
theorem decode_eq_mapError_decode_greatest :
    let types : List AbiType := [.tuple [.bool, .bytes]]
    let data := Bytes.ofNat 32 32 ++ Bytes.ofNat 32 1 ++ Bytes.ofNat 32 64 ++ List.replicate 32 255
    decode types data = .error (.refused (.outOfRange maxOffset 96)) ∧
      96 < maxOffset ∧ 96 ≤ data.length := by
  intro types data
  have hnamed : ∀ type ∈ types, type.IsNamed := by
    intro type htype
    rw [List.mem_singleton.mp htype]
    refine AbiType.isNamed_iff.mpr (.tuple fun field hfield => ?_)
    rcases List.mem_pair.mp hfield with rfl | rfl
    · exact .bool
    · exact .bytes
  have hplain : Abi.decode types data = .error (.outOfRange maxOffset 96) := rfl
  have hlen : data.length < 2 ^ 63 := by decide
  obtain ⟨hchecked, hwithin⟩ := decode_eq_mapError_decode hnamed hlen
  rw [hchecked, hplain]
  exact ⟨rfl, hwithin maxOffset 96 hplain⟩

end Checked

end Abi

end ChainClient
