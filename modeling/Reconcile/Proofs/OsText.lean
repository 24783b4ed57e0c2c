import Mathlib.Tactic.NormNum
import Mathlib.Tactic.Ring
import Reconcile.OsText

namespace Reconcile

namespace Utf8

variable {byte : Nat} {state : Option Started} {started : Started} {bytes : List UInt8} {c : Char}

theorem decode_cons (state : Option Started) (byte : UInt8) (bytes : List UInt8) :
    decode state (byte :: bytes) =
      (step state byte.toNat).1 ++ decode (step state byte.toNat).2 bytes :=
  rfl

theorem first_of_start? (hstart : start? byte = some started) : first byte = ([], some started) := by
  have hlarge : ¬ byte < 0x80 := by
    intro hsmall
    rw [start?, if_pos (by omega)] at hstart
    cases hstart
  rw [first, if_neg hlarge, hstart]

section Reading

variable {byte : UInt8} {bits missing low high : Nat}

/-- The first byte of a longer character shows nothing yet. -/
theorem decode_start (hstart : start? byte.toNat = some started) (bytes : List UInt8) :
    decode none (byte :: bytes) = decode (some started) bytes := by
  rw [decode_cons, step, first_of_start? hstart]
  rfl

/-- A byte in the middle of a character adds its bits. -/
theorem decode_next (hlow : low ≤ byte.toNat) (hhigh : byte.toNat ≤ high) (bytes : List UInt8) :
    decode (some ⟨bits, missing + 1, low, high⟩) (byte :: bytes) =
      decode (some ⟨64 * bits + (byte.toNat - 0x80), missing, 0x80, 0xBF⟩) bytes := by
  rw [decode_cons, step, Started.next, if_pos ⟨hlow, hhigh⟩]
  rfl

/-- The last byte of a character completes it. -/
theorem decode_last (hlow : low ≤ byte.toNat) (hhigh : byte.toNat ≤ high) (bytes : List UInt8) :
    decode (some ⟨bits, 0, low, high⟩) (byte :: bytes) =
      Char.ofNat (64 * bits + (byte.toNat - 0x80)) :: decode none bytes := by
  rw [decode_cons, step, Started.next, if_pos ⟨hlow, hhigh⟩]
  rfl

end Reading

/-- The first byte of two says nothing about the second one but that it goes on. -/
theorem start?_two (byte : Nat) (hlow : 0xC2 ≤ byte) (hhigh : byte < 0xE0) :
    start? byte = some ⟨byte - 0xC0, 0, 0x80, 0xBF⟩ := by
  rw [start?, if_neg (by omega), if_pos hhigh]

/-- The first byte of three says how the second one is bounded, and the second byte of a character is
    within the bounds. -/
theorem start?_three (number : Nat) (hlow : 0x800 ≤ number) (hhigh : number < 0x10000)
    (hscalar : number < 0xD800 ∨ 0xDFFF < number) :
    ∃ low high, start? (number / 4096 + 0xE0) = some ⟨number / 4096, 1, low, high⟩ ∧
      low ≤ number / 64 % 64 + 0x80 ∧ number / 64 % 64 + 0x80 ≤ high := by
  rw [start?, if_neg (by omega), if_neg (by omega)]
  by_cases hfirst : number / 4096 = 0
  · exact ⟨0xA0, 0xBF, by simp [hfirst], by omega, by omega⟩
  rw [if_neg (by omega)]
  by_cases hsurrogate : number / 4096 = 0xD
  · exact ⟨0x80, 0x9F, by simp [hsurrogate], by omega, by omega⟩
  rw [if_neg (by omega), if_pos (by omega)]
  exact ⟨0x80, 0xBF, by simp, by omega, by omega⟩

/-- The first byte of four bounds the second one, too. -/
theorem start?_four (number : Nat) (hlow : 0x10000 ≤ number) (hhigh : number < 0x110000) :
    ∃ low high, start? (number / 262144 + 0xF0) = some ⟨number / 262144, 2, low, high⟩ ∧
      low ≤ number / 4096 % 64 + 0x80 ∧ number / 4096 % 64 + 0x80 ≤ high := by
  rw [start?, if_neg (by omega), if_neg (by omega), if_neg (by omega), if_neg (by omega),
    if_neg (by omega)]
  by_cases hfirst : number / 262144 = 0
  · exact ⟨0x90, 0xBF, by simp [hfirst], by omega, by omega⟩
  rw [if_neg (by omega)]
  by_cases hlast : number / 262144 = 4
  · exact ⟨0x80, 0x8F, by simp [hlast], by omega, by omega⟩
  rw [if_pos (by omega)]
  exact ⟨0x80, 0xBF, by simp, by omega, by omega⟩

/-- How many bytes a character takes depends on its number. -/
theorem utf8EncodeChar_eq (c : Char) : String.utf8EncodeChar c =
    if c.toNat ≤ 127 then [UInt8.ofNat c.toNat]
    else if c.toNat ≤ 2047 then
      [UInt8.ofNat (c.toNat / 64 % 32 + 192), UInt8.ofNat (c.toNat % 64 + 128)]
    else if c.toNat ≤ 65535 then
      [UInt8.ofNat (c.toNat / 4096 % 16 + 224), UInt8.ofNat (c.toNat / 64 % 64 + 128),
        UInt8.ofNat (c.toNat % 64 + 128)]
    else
      [UInt8.ofNat (c.toNat / 262144 % 8 + 240), UInt8.ofNat (c.toNat / 4096 % 64 + 128),
        UInt8.ofNat (c.toNat / 64 % 64 + 128), UInt8.ofNat (c.toNat % 64 + 128)] :=
  rfl

theorem toNat_ofNat (byte : Nat) (hbyte : byte < 256) : (UInt8.ofNat byte).toNat = byte :=
  UInt8.toNat_ofNat_of_lt' hbyte

theorem toNat_ofNat_of_valid {number : Nat} (hvalid : number.isValidChar) :
    (Char.ofNat number).toNat = number := by
  rw [Char.ofNat, dif_pos hvalid]
  rfl

theorem ofNat_cons {number : Nat} (hnumber : number = c.toNat) (text : List Char) :
    Char.ofNat number :: text = c :: text := by
  rw [hnumber, Char.ofNat_toNat]

/-- The number of a character is that of no surrogate. -/
theorem toNat_scalar (c : Char) : c.toNat < 0xD800 ∨ 0xDFFF < c.toNat ∧ c.toNat < 0x110000 :=
  c.valid

/-- The bytes of a character are read as that character, whatever follows. -/
theorem decode_utf8EncodeChar_append (c : Char) (bytes : List UInt8) :
    decode none (String.utf8EncodeChar c ++ bytes) = c :: decode none bytes := by
  have hscalar := toNat_scalar c
  rw [utf8EncodeChar_eq]
  split
  case isTrue hone =>
    rw [List.singleton_append, decode_cons, toNat_ofNat _ (by omega), step, first, if_pos (by omega),
      Char.ofNat_toNat]
    rfl
  split
  case isTrue htwo =>
    have hlead := toNat_ofNat (c.toNat / 64 % 32 + 192) (by omega)
    have hlast := toNat_ofNat (c.toNat % 64 + 128) (by omega)
    have hstart := start?_two (c.toNat / 64 % 32 + 192) (by omega) (by omega)
    rw [← hlead] at hstart
    refine (decode_start hstart _).trans ((decode_last (by omega) (by omega) _).trans ?_)
    exact ofNat_cons (by omega) _
  split
  case isTrue hthree =>
    have hlead := toNat_ofNat (c.toNat / 4096 % 16 + 224) (by omega)
    have hmiddle := toNat_ofNat (c.toNat / 64 % 64 + 128) (by omega)
    have hlast := toNat_ofNat (c.toNat % 64 + 128) (by omega)
    obtain ⟨low, high, hstart, hlow, hhigh⟩ :=
      start?_three c.toNat (by omega) (by omega) (by omega)
    rw [← hmiddle] at hlow hhigh
    rw [show c.toNat / 4096 + 0xE0 = c.toNat / 4096 % 16 + 224 by omega, ← hlead] at hstart
    refine (decode_start hstart _).trans ((decode_next hlow hhigh _).trans
      ((decode_last (by omega) (by omega) _).trans ?_))
    exact ofNat_cons (by omega) _
  case isFalse hfour =>
    have hlead := toNat_ofNat (c.toNat / 262144 % 8 + 240) (by omega)
    have hsecond := toNat_ofNat (c.toNat / 4096 % 64 + 128) (by omega)
    have hthird := toNat_ofNat (c.toNat / 64 % 64 + 128) (by omega)
    have hlast := toNat_ofNat (c.toNat % 64 + 128) (by omega)
    obtain ⟨low, high, hstart, hlow, hhigh⟩ := start?_four c.toNat (by omega) (by omega)
    rw [← hsecond] at hlow hhigh
    rw [show c.toNat / 262144 + 0xF0 = c.toNat / 262144 % 8 + 240 by omega, ← hlead] at hstart
    refine (decode_start hstart _).trans ((decode_next hlow hhigh _).trans
      ((decode_next (by omega) (by omega) _).trans ((decode_last (by omega) (by omega) _).trans ?_)))
    exact ofNat_cons (by omega) _

/-- The least number that a character that has begun can turn out to have. -/
def Started.least (started : Started) : Nat :=
  (64 * started.bits + (started.low - 0x80)) * 64 ^ started.missing

/-- What the number of a character that has begun stays below. -/
def Started.beyond (started : Started) : Nat :=
  (64 * started.bits + (started.high - 0x80) + 1) * 64 ^ started.missing

/-- Whichever bytes come next, the character that has begun is one, and needs several bytes. -/
structure Started.Sound (started : Started) : Prop where
  low_ge : 0x80 ≤ started.low
  high_le : started.high ≤ 0xBF
  large : 0x80 ≤ started.least
  scalar : started.beyond ≤ 0xD800 ∨ 0xE000 ≤ started.least ∧ started.beyond ≤ 0x110000

theorem sound_of_start? (hstart : start? byte = some started) : started.Sound := by
  have hsound {bits missing low high : Nat} (hge : 0x80 ≤ low) (hle : high ≤ 0xBF)
      (hlarge : 0x80 ≤ (64 * bits + (low - 0x80)) * 64 ^ missing)
      (hscalar : (64 * bits + (high - 0x80) + 1) * 64 ^ missing ≤ 0xD800 ∨
        0xE000 ≤ (64 * bits + (low - 0x80)) * 64 ^ missing ∧
          (64 * bits + (high - 0x80) + 1) * 64 ^ missing ≤ 0x110000)
      (heq : some ⟨bits, missing, low, high⟩ = some started) : started.Sound :=
    Option.some.inj heq ▸ ⟨hge, hle, hlarge, hscalar⟩
  simp only [start?] at hstart
  split_ifs at hstart <;>
    exact hsound (by decide) (by decide) (by omega) (by omega) hstart

/-- A byte that fits narrows the numbers that are left. -/
theorem Started.Sound.next (hsound : started.Sound) (hlow : started.low ≤ byte)
    (hhigh : byte ≤ started.high) {missing : Nat} (hmissing : started.missing = missing + 1) :
    Started.Sound ⟨64 * started.bits + (byte - 0x80), missing, 0x80, 0xBF⟩ := by
  obtain ⟨hge, hle, hlarge, hscalar⟩ := hsound
  have hleast : started.least ≤
      Started.least ⟨64 * started.bits + (byte - 0x80), missing, 0x80, 0xBF⟩ := by
    calc started.least = (64 * started.bits + (started.low - 0x80)) * 64 ^ (missing + 1) := by
          rw [least, hmissing]
      _ ≤ (64 * started.bits + (byte - 0x80)) * 64 ^ (missing + 1) :=
          Nat.mul_le_mul_right _ (by omega)
      _ = _ := by rw [least]; ring
  have hbeyond : Started.beyond ⟨64 * started.bits + (byte - 0x80), missing, 0x80, 0xBF⟩ ≤
      started.beyond := by
    calc _ = (64 * started.bits + (byte - 0x80) + 1) * 64 ^ (missing + 1) := by rw [beyond]; ring
      _ ≤ (64 * started.bits + (started.high - 0x80) + 1) * 64 ^ (missing + 1) :=
          Nat.mul_le_mul_right _ (by omega)
      _ = started.beyond := by rw [beyond, hmissing]
  exact ⟨le_rfl, le_rfl, by omega, by omega⟩

/-- A character of several bytes is none that has one byte. -/
theorem Started.Sound.not_ascii (hsound : started.Sound) (hlow : started.low ≤ byte)
    (hhigh : byte ≤ started.high) (hmissing : started.missing = 0) :
    0x80 ≤ (Char.ofNat (64 * started.bits + (byte - 0x80))).toNat := by
  obtain ⟨hge, hle, hlarge, hscalar⟩ := hsound
  rw [least, beyond, hmissing, Nat.pow_zero, Nat.mul_one, Nat.mul_one] at hscalar
  rw [least, hmissing, Nat.pow_zero, Nat.mul_one] at hlarge
  have hvalid : (64 * started.bits + (byte - 0x80)).isValidChar := by
    rw [Nat.isValidChar]
    omega
  rw [toNat_ofNat_of_valid hvalid]
  omega

/-- A byte between characters is one, begins one, or is replaced. -/
theorem first_cases (byte : Nat) :
    (byte < 0x80 ∧ first byte = ([Char.ofNat byte], none)) ∨
      (∃ started, started.Sound ∧ first byte = ([], some started)) ∨
      first byte = ([replacement], none) := by
  by_cases hascii : byte < 0x80
  · exact .inl ⟨hascii, if_pos hascii⟩
  cases hstart : start? byte with
  | some started => exact .inr (.inl ⟨started, sound_of_start? hstart, first_of_start? hstart⟩)
  | none => exact .inr (.inr (by rw [first, if_neg hascii, hstart]))

/-- Everything that a byte can do. -/
theorem step_cases (hsound : ∀ started ∈ state, started.Sound) (byte : Nat) :
    (state = none ∧ step state byte = first byte) ∨
      (∃ started, started.Sound ∧ step state byte = ([], some started)) ∨
      (∃ c : Char, 0x80 ≤ c.toNat ∧ step state byte = ([c], none)) ∨
      step state byte = (replacement :: (first byte).1, (first byte).2) := by
  cases state with
  | none => exact .inl ⟨rfl, rfl⟩
  | some started =>
    have hsound := hsound started rfl
    rw [step, Started.next]
    split
    case isFalse => exact .inr (.inr (.inr rfl))
    case isTrue hfits =>
      cases hmissing : started.missing with
      | zero => exact .inr (.inr (.inl ⟨_, hsound.not_ascii hfits.1 hfits.2 hmissing, rfl⟩))
      | succ missing => exact .inr (.inl ⟨_, hsound.next hfits.1 hfits.2 hmissing, rfl⟩)

theorem replacement_not_ascii : 0x80 ≤ replacement.toNat := by
  decide

theorem sound_of_mem_first (hmem : started ∈ (first byte).2) : started.Sound := by
  rcases first_cases byte with ⟨-, hfirst⟩ | ⟨begun, hbegun, hfirst⟩ | hfirst <;> rw [hfirst] at hmem
  · cases hmem
  · cases hmem
    exact hbegun
  · cases hmem

theorem sound_of_mem_step (hsound : ∀ started ∈ state, started.Sound)
    (hmem : started ∈ (step state byte).2) : started.Sound := by
  rcases step_cases hsound byte with ⟨-, hstep⟩ | ⟨begun, hbegun, hstep⟩ | ⟨c, -, hstep⟩ | hstep <;>
    rw [hstep] at hmem
  · exact sound_of_mem_first hmem
  · cases hmem
    exact hbegun
  · cases hmem
  · exact sound_of_mem_first hmem

theorem eq_toNat_of_mem_first (hmem : c ∈ (first byte).1) (hascii : c.toNat < 0x80) :
    byte = c.toNat := by
  rcases first_cases byte with ⟨hbyte, hfirst⟩ | ⟨begun, -, hfirst⟩ | hfirst <;> rw [hfirst] at hmem
  · obtain rfl := List.mem_singleton.mp hmem
    rw [toNat_ofNat_of_valid (.inl (by omega))]
  · cases hmem
  · obtain rfl := List.mem_singleton.mp hmem
    exact absurd hascii (Nat.not_lt.mpr replacement_not_ascii)

/-- An ASCII character comes from its own byte, in the middle of another character, too. -/
theorem eq_toNat_of_mem_step (hsound : ∀ started ∈ state, started.Sound)
    (hmem : c ∈ (step state byte).1) (hascii : c.toNat < 0x80) : byte = c.toNat := by
  rcases step_cases hsound byte with ⟨-, hstep⟩ | ⟨begun, -, hstep⟩ | ⟨d, hlarge, hstep⟩ | hstep <;>
    rw [hstep] at hmem
  · exact eq_toNat_of_mem_first hmem hascii
  · cases hmem
  · obtain rfl := List.mem_singleton.mp hmem
    omega
  · rcases List.mem_cons.mp hmem with rfl | hmem
    · exact absurd hascii (Nat.not_lt.mpr replacement_not_ascii)
    · exact eq_toNat_of_mem_first hmem hascii

/-- A character in ASCII is shown only where its byte is. -/
theorem mem_of_mem_decode (hsound : ∀ started ∈ state, started.Sound)
    (hmem : c ∈ decode state bytes) (hascii : c.toNat < 0x80) : UInt8.ofNat c.toNat ∈ bytes := by
  induction bytes generalizing state with
  | nil =>
    obtain ⟨started, -, rfl⟩ := List.mem_map.mp hmem
    exact absurd hascii (Nat.not_lt.mpr replacement_not_ascii)
  | cons byte bytes ih =>
    rw [decode_cons] at hmem
    rcases List.mem_append.mp hmem with hmem | hmem
    · rw [← eq_toNat_of_mem_step hsound hmem hascii, UInt8.ofNat_toNat]
      exact List.mem_cons_self
    · exact List.mem_cons_of_mem _ (ih (fun _ => sound_of_mem_step hsound) hmem)

/-- A byte after which only characters in ASCII were shown is one of them. -/
theorem step_eq_of_ascii (hsound : ∀ started ∈ state, started.Sound)
    (hascii : ∀ c ∈ (step state byte).1, c.toNat < 0x80) (hend : (step state byte).2 = none) :
    state = none ∧ byte < 0x80 ∧ (step state byte).1 = [Char.ofNat byte] := by
  have hreplaced (hmem : replacement ∈ (step state byte).1) : False :=
    Nat.not_lt.mpr replacement_not_ascii (hascii _ hmem)
  rcases step_cases hsound byte with ⟨rfl, hstep⟩ | ⟨begun, -, hstep⟩ | ⟨c, hlarge, hstep⟩ | hstep <;>
    rw [hstep] at hascii hend hreplaced ⊢
  · rcases first_cases byte with ⟨hbyte, hfirst⟩ | ⟨begun, -, hfirst⟩ | hfirst <;>
      rw [hfirst] at hend hreplaced ⊢
    · exact ⟨rfl, hbyte, rfl⟩
    · cases hend
    · exact (hreplaced List.mem_cons_self).elim
  · cases hend
  · exact absurd (hascii c List.mem_cons_self) (Nat.not_lt.mpr hlarge)
  · exact (hreplaced List.mem_cons_self).elim

/-- Where only characters in ASCII are shown, the bytes are theirs. -/
theorem eq_of_decode_ascii (hsound : ∀ started ∈ state, started.Sound)
    (hascii : ∀ c ∈ decode state bytes, c.toNat < 0x80) :
    state = none ∧ bytes = (decode state bytes).flatMap String.utf8EncodeChar := by
  induction bytes generalizing state with
  | nil =>
    cases state with
    | none => exact ⟨rfl, rfl⟩
    | some started =>
      exact absurd (hascii replacement List.mem_cons_self) (Nat.not_lt.mpr replacement_not_ascii)
  | cons byte bytes ih =>
    rw [decode_cons] at hascii ⊢
    obtain ⟨hend, hbytes⟩ := ih (fun _ => sound_of_mem_step hsound)
      fun c hmem => hascii c (List.mem_append_right _ hmem)
    obtain ⟨hstate, hbyte, hstep⟩ := step_eq_of_ascii hsound
      (fun c hmem => hascii c (List.mem_append_left _ hmem)) hend
    have hone : String.utf8EncodeChar (Char.ofNat byte.toNat) = [byte] := by
      have htoNat : (Char.ofNat byte.toNat).toNat = byte.toNat := by
        rw [toNat_ofNat_of_valid (.inl (by omega))]
      rw [utf8EncodeChar_eq, htoNat, if_pos (by omega), UInt8.ofNat_toNat]
    refine ⟨hstate, ?_⟩
    rw [hstep, List.singleton_append, List.flatMap_cons, hone, ← hbytes]
    rfl

theorem utf8EncodeChar_of_ascii (hascii : c.toNat < 0x80) :
    String.utf8EncodeChar c = [UInt8.ofNat c.toNat] := by
  rw [utf8EncodeChar_eq, if_pos (by omega)]

theorem not_ascii_of_mem_utf8EncodeChar (hlarge : 0x80 ≤ c.toNat) {byte : UInt8}
    (hmem : byte ∈ String.utf8EncodeChar c) : 0x80 ≤ byte.toNat := by
  have hbyte {n : Nat} (hge : 0x80 ≤ n) (hlt : n < 256) : 0x80 ≤ (UInt8.ofNat n).toNat :=
    (toNat_ofNat _ hlt).symm ▸ hge
  have hscalar := toNat_scalar c
  rw [utf8EncodeChar_eq, if_neg (by omega)] at hmem
  split_ifs at hmem <;> simp only [List.mem_cons, List.not_mem_nil, or_false] at hmem
  · rcases hmem with rfl | rfl <;> exact hbyte (by omega) (by omega)
  · rcases hmem with rfl | rfl | rfl <;> exact hbyte (by omega) (by omega)
  · rcases hmem with rfl | rfl | rfl | rfl <;> exact hbyte (by omega) (by omega)

end Utf8

namespace OsText

variable {text : OsText} {chars : List Char} {c : Char}

/-- Characters are read back from their bytes. -/
theorem shown_ofList (chars : List Char) : (ofList chars).shown = chars := by
  rw [shown, ofList]
  induction chars with
  | nil => rfl
  | cons c chars ih => rw [List.flatMap_cons, Utf8.decode_utf8EncodeChar_append, ih]

theorem ofList_inj {others : List Char} : ofList chars = ofList others ↔ chars = others := by
  refine ⟨fun heq => ?_, congrArg ofList⟩
  rw [← shown_ofList chars, heq, shown_ofList]

/-- A text that is the UTF-8 form of characters. -/
def IsText (text : OsText) : Prop :=
  ∃ chars, text = ofList chars

/-- A text is one of characters exactly if writing down what is shown gives it back. -/
theorem isText_iff : text.IsText ↔ ofList text.shown = text := by
  constructor
  · rintro ⟨chars, rfl⟩
    rw [shown_ofList]
  · exact fun heq => ⟨text.shown, heq.symm⟩

instance : DecidablePred IsText := fun _ => decidable_of_iff _ isText_iff.symm

/-- A text whose characters are all in ASCII has their bytes. -/
theorem eq_ofList_of_shown (hshown : text.shown = chars) (hascii : ∀ c ∈ chars, c.toNat < 0x80) :
    text = ofList chars := by
  subst hshown
  obtain ⟨-, hbytes⟩ := Utf8.eq_of_decode_ascii (by simp) hascii
  rw [ofList, shown, ← hbytes]

theorem notMem_shown (hascii : c.toNat < 0x80) (hmem : UInt8.ofNat c.toNat ∉ text.bytes) :
    c ∉ text.shown :=
  fun hshown => hmem (Utf8.mem_of_mem_decode (by simp) hshown hascii)

theorem notMem_bytes_ofList (hascii : c.toNat < 0x80) (hmem : c ∉ chars) :
    UInt8.ofNat c.toNat ∉ (ofList chars).bytes := by
  intro hbyte
  obtain ⟨d, hd, hbyte⟩ := List.mem_flatMap.mp hbyte
  have htoNat := Utf8.toNat_ofNat c.toNat (by omega)
  by_cases hsmall : d.toNat < 0x80
  · rw [Utf8.utf8EncodeChar_of_ascii hsmall, List.mem_singleton] at hbyte
    have heq : c.toNat = d.toNat := by
      rw [← htoNat, hbyte, Utf8.toNat_ofNat _ (by omega)]
    exact hmem (Char.toNat_inj.mp heq ▸ hd)
  · have hlarge := Utf8.not_ascii_of_mem_utf8EncodeChar (by omega) hbyte
    omega

end OsText

end Reconcile
