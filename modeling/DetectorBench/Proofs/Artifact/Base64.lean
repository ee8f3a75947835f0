import DetectorBench.Artifact

/-!
# Base64 in both directions

Decoding the text of bytes gives the bytes. The proof goes group by group, as
`encode` does: three bytes are six bits four times over, and the bits that a
last group leaves over are zero because encoding put zeros there. What is
decoded is the text as bytes, so each symbol is followed to its byte (`code`)
and back to its value.

An artifact that was packed is unpacked accordingly.
-/

namespace DetectorBench

namespace Base64

/-! ## Symbols -/

/-- The byte of the symbol of a value. -/
def code (n : Nat) : UInt8 :=
  UInt8.ofNat (symbol n).toNat

/-- A symbol stands for its value. -/
theorem value?_code {n : Nat} (h : n < 64) : value? (code n) = some n := by
  have all : ∀ n, n < 64 → value? (code n) = some n := by decide
  exact all n h

/-- The byte of a symbol has the value of the symbol. -/
theorem valueAt_code {n : Nat} (h : n < 64) (offset : Nat) :
    valueAt offset (code n) = .ok n := by
  unfold valueAt
  rw [value?_code h]

/-- No symbol is padding. -/
theorem code_ne_padding {n : Nat} (h : n < 64) : code n ≠ padding := by
  intro heq
  have hvalue := value?_code h
  rw [heq] at hvalue
  cases hvalue

/-- The bytes of the text of bytes. -/
def codes (bytes : List UInt8) : List UInt8 :=
  (encode bytes).map fun c => UInt8.ofNat c.toNat

/-- Three bytes are four symbols. -/
theorem codes_group (a b c : UInt8) (rest : List UInt8) :
    codes (a :: b :: c :: rest) =
      code (a.toNat / 4) :: code (a.toNat % 4 * 16 + b.toNat / 16)
        :: code (b.toNat % 16 * 4 + c.toNat / 64) :: code (c.toNat % 64)
        :: codes rest := rfl

/-- Two bytes at the end are three symbols and padding. -/
theorem codes_pair (a b : UInt8) :
    codes [a, b] =
      [code (a.toNat / 4), code (a.toNat % 4 * 16 + b.toNat / 16),
        code (b.toNat % 16 * 4), padding] := rfl

/-- One byte at the end is two symbols and padding twice. -/
theorem codes_single (a : UInt8) :
    codes [a] = [code (a.toNat / 4), code (a.toNat % 4 * 16), padding,
      padding] := rfl

/-- Symbols come in groups of four. -/
theorem length_codes (bytes : List UInt8) : (codes bytes).length % 4 = 0 := by
  induction bytes using encode.induct with
  | case1 a b c rest ih =>
    rw [codes_group]
    simp only [List.length_cons]
    omega
  | case2 a b =>
    rw [codes_pair]
    simp
  | case3 a =>
    rw [codes_single]
    simp
  | case4 => rfl

/-! ## Groups -/

/-- A byte is put together from the parts that it was split into. -/
theorem ofNat_parts {b : UInt8} {n : Nat} (h : n = b.toNat) :
    UInt8.ofNat n = b := by
  rw [h, UInt8.ofNat_toNat]

/-- A symbol of the last group adds its value. -/
theorem readLast_code {n : Nat} (h : n < 64) (offset index : Nat)
    (rest : List UInt8) :
    readLast offset index none (code n :: rest) =
      (do
        let (values, count) ← readLast offset (index + 1) none rest
        return (n :: values, count)) := by
  rw [readLast, if_neg (code_ne_padding h), valueAt_code h]
  rfl

/-- A last group is what its values stand for, however many of its symbols are
padding. -/
theorem decodeLast_of_values {group : List UInt8} {offset count : Nat}
    {values : List Nat} {bytes : List UInt8}
    (hread : readLast offset 0 none group = .ok (values, count))
    (hlength : 2 ≤ values.length) (hfull : (values.length + count) % 4 = 0)
    (hbytes : lastBytes? values = some bytes) :
    decodeLast offset group = .ok bytes := by
  unfold decodeLast
  rw [hread]
  show (if group ≠ [] ∧ values.length < 2 then _ else _) = _
  rw [if_neg (fun h => absurd h.2 (by omega))]
  rw [if_neg (not_not_intro hfull), hbytes]
  rfl

/-- One byte is got back from the last group. -/
theorem decodeLast_single (a : UInt8) (offset : Nat) :
    decodeLast offset (codes [a]) = .ok [a] := by
  have ha := a.toNat_lt
  have hread : readLast offset 0 none (codes [a]) =
      .ok ([a.toNat / 4, a.toNat % 4 * 16], 2) := by
    rw [codes_single, readLast_code (by omega), readLast_code (by omega)]
    rfl
  refine decodeLast_of_values hread (by simp) (by simp) ?_
  rw [lastBytes?, if_pos (by omega), ofNat_parts (b := a) (by omega)]

/-- So are two. -/
theorem decodeLast_pair (a b : UInt8) (offset : Nat) :
    decodeLast offset (codes [a, b]) = .ok [a, b] := by
  have ha := a.toNat_lt
  have hb := b.toNat_lt
  have hread : readLast offset 0 none (codes [a, b]) =
      .ok ([a.toNat / 4, a.toNat % 4 * 16 + b.toNat / 16, b.toNat % 16 * 4], 1) := by
    rw [codes_pair, readLast_code (by omega), readLast_code (by omega),
      readLast_code (by omega)]
    rfl
  refine decodeLast_of_values hread (by simp) (by simp) ?_
  rw [lastBytes?, if_pos (by omega), ofNat_parts (b := a) (by omega),
    ofNat_parts (b := b) (by omega)]

/-- So are three, which leave no room for padding. -/
theorem decodeLast_triple (a b c : UInt8) (offset : Nat) :
    decodeLast offset (codes [a, b, c]) = .ok [a, b, c] := by
  have ha := a.toNat_lt
  have hb := b.toNat_lt
  have hc := c.toNat_lt
  have hread : readLast offset 0 none (codes [a, b, c]) =
      .ok ([a.toNat / 4, a.toNat % 4 * 16 + b.toNat / 16,
        b.toNat % 16 * 4 + c.toNat / 64,
        c.toNat % 64], 0) := by
    rw [codes_group, readLast_code (by omega), readLast_code (by omega),
      readLast_code (by omega), readLast_code (by omega)]
    rfl
  refine decodeLast_of_values hread (by simp) (by simp) ?_
  rw [lastBytes?, ofNat_parts (b := a) (by omega), ofNat_parts (b := b) (by omega),
    ofNat_parts (b := c) (by omega)]

/-- A full group in front of another symbol is three bytes in front of what
comes after. -/
theorem decodeFrom_group (a b c : UInt8) (offset : Nat) (e : UInt8)
    (rest : List UInt8) :
    decodeFrom offset
        (code (a.toNat / 4) :: code (a.toNat % 4 * 16 + b.toNat / 16)
          :: code (b.toNat % 16 * 4 + c.toNat / 64) :: code (c.toNat % 64) :: e
          :: rest) =
      (do return a :: b :: c :: (← decodeFrom (offset + 4) (e :: rest))) := by
  have ha := a.toNat_lt
  have hb := b.toNat_lt
  have hc := c.toNat_lt
  rw [decodeFrom, valueAt_code (by omega), valueAt_code (by omega),
    valueAt_code (by omega), valueAt_code (by omega)]
  simp only [bind, Except.bind]
  rw [ofNat_parts (b := a) (by omega), ofNat_parts (b := b) (by omega),
    ofNat_parts (b := c) (by omega)]

/-- Only of no bytes there is no text. -/
theorem codes_eq_cons : ∀ {bytes : List UInt8}, bytes ≠ [] → ∃ e rest,
    codes bytes = e :: rest
  | [], h => absurd rfl h
  | [_], _ => ⟨_, _, rfl⟩
  | [_, _], _ => ⟨_, _, rfl⟩
  | _ :: _ :: _ :: _, _ => ⟨_, _, rfl⟩

/-- **The bytes are got back from their text**, wherever it starts. -/
theorem decodeFrom_codes (bytes : List UInt8) :
    ∀ offset, decodeFrom offset (codes bytes) = .ok bytes := by
  induction bytes using encode.induct with
  | case1 a b c rest ih =>
    intro offset
    -- the group at the end is decoded as the last one, also when it is full
    by_cases hrest : rest = []
    · subst hrest
      exact decodeLast_triple a b c offset
    · obtain ⟨e, more, hcodes⟩ := codes_eq_cons hrest
      rw [codes_group, hcodes, decodeFrom_group, ← hcodes, ih]
      rfl
  | case2 a b => exact decodeLast_pair a b
  | case3 a => exact decodeLast_single a
  | case4 =>
    intro offset
    rfl

/-- **Round trip**: bytes are decoded from their text. -/
theorem decode_codes (bytes : List UInt8) :
    decode (codes bytes) = .ok bytes := by
  have hstray : strayEnd? (codes bytes) = none := by
    unfold strayEnd?
    rw [length_codes, if_neg (by decide)]
  unfold decode
  rw [hstray]
  exact decodeFrom_codes bytes 0

/-! ## The text as bytes -/

/-- Every symbol is one byte. -/
theorem symbol_ascii {n : Nat} (h : n < 64) : (symbol n).toNat < 128 := by
  have all : ∀ n, n < 64 → (symbol n).toNat < 128 := by decide
  exact all n h

/-- All symbols are one byte each. -/
theorem encode_ascii (bytes : List UInt8) :
    ∀ c ∈ encode bytes, c.toNat < 128 := by
  induction bytes using encode.induct with
  | case1 a b c rest ih =>
    have ha := a.toNat_lt
    have hb := b.toNat_lt
    have hc := c.toNat_lt
    intro s hs
    simp only [encode, List.mem_cons] at hs
    rcases hs with rfl | rfl | rfl | rfl | hs
    · exact symbol_ascii (by omega)
    · exact symbol_ascii (by omega)
    · exact symbol_ascii (by omega)
    · exact symbol_ascii (by omega)
    · exact ih s hs
  | case2 a b =>
    have ha := a.toNat_lt
    have hb := b.toNat_lt
    intro s hs
    simp only [encode, List.mem_cons, List.not_mem_nil, or_false] at hs
    rcases hs with rfl | rfl | rfl | rfl
    · exact symbol_ascii (by omega)
    · exact symbol_ascii (by omega)
    · exact symbol_ascii (by omega)
    · decide
  | case3 a =>
    have ha := a.toNat_lt
    intro s hs
    simp only [encode, List.mem_cons, List.not_mem_nil, or_false] at hs
    rcases hs with rfl | rfl | rfl | rfl
    · exact symbol_ascii (by omega)
    · exact symbol_ascii (by omega)
    · decide
    · decide
  | case4 =>
    intro s hs
    cases hs

/-- The bytes of a text of characters of one byte each. -/
theorem toUTF8_ascii {cs : List Char} (h : ∀ c ∈ cs, c.toNat < 128) :
    (String.ofList cs).toUTF8.data.toList = cs.map fun c => UInt8.ofNat c.toNat := by
  rw [String.toUTF8_eq_toByteArray, String.toByteArray_ofList, List.utf8Encode,
    List.toList_data_toByteArray]
  induction cs with
  | nil => rfl
  | cons c cs ih =>
    have hc : c.toNat < 128 := h c List.mem_cons_self
    have hval : c.val ≤ 0x7f := UInt32.le_iff_toNat_le.mpr (Nat.le_of_lt_succ hc)
    have hsize : c.utf8Size = 1 := if_pos hval
    rw [List.flatMap_cons, String.utf8EncodeChar_eq_singleton hsize, List.map_cons,
      ih fun c hc => h c (List.mem_cons_of_mem _ hc)]
    rfl

end Base64

/-- An artifact holds the bytes that were packed. -/
theorem Artifact.unpack_pack (name : String) (bytes : List UInt8) :
    (Artifact.pack name bytes).unpack = .ok bytes := by
  have hpayload : (Artifact.pack name bytes).payload.toUTF8.data.toList =
      Base64.codes bytes :=
    Base64.toUTF8_ascii (Base64.encode_ascii bytes)
  unfold unpack
  rw [hpayload, Base64.decode_codes]
  rfl

end DetectorBench
