import DetectorBench.Proofs.Artifact.Base64
import DetectorBench.Proofs.Steps
import Mathlib.Algebra.Group.Nat.Defs
import Mathlib.Data.List.Nodup

/-!
# Bytes have one payload

Decoding accepts what encoding writes and nothing else: a text that decodes is
the text of what it decodes to (`codes_of_decode`). The proof inverts decoding
layer by layer, from single symbols over the last group to the whole text.

What such texts look like is said without either direction (`Canonical`):
symbols of the alphabet, as much padding as it takes to come to a multiple of
four, and no bits left over that are not zero. The texts of bytes are exactly
these (`canonical_iff`), and payloads of artifacts are such texts
(`Artifact.pack_faithful`).
-/

namespace DetectorBench

namespace Base64

/-! ## Symbols -/

/-- A byte with a value is the byte of the symbol of that value. -/
theorem code_of_value? {b : UInt8} {n : Nat} (h : value? b = some n) :
    n < 64 ∧ code n = b := by
  have all : ∀ k < 256, ∀ n ∈ value? (UInt8.ofNat k),
      n < 64 ∧ code n = UInt8.ofNat k := by
    decide +kernel
  have hb : UInt8.ofNat b.toNat = b := UInt8.ofNat_toNat
  rw [← hb] at h ⊢
  exact all b.toNat b.toNat_lt n h

/-- `code_of_value?` where the place of the byte is known. -/
theorem code_of_valueAt {offset : Nat} {b : UInt8} {n : Nat}
    (h : valueAt offset b = .ok n) :
    n < 64 ∧ code n = b := by
  unfold valueAt at h
  cases hv : value? b with
  | none =>
    rw [hv] at h
    cases h
  | some v =>
    rw [hv] at h
    cases h
    exact code_of_value? hv

/-! ## Groups of values -/

/-- Four values are those that the three bytes which they make up are written
with. -/
theorem encode_values {a b c d : Nat} (ha : a < 64) (hb : b < 64) (hc : c < 64)
    (hd : d < 64) (rest : List UInt8) :
    encode (UInt8.ofNat (a * 4 + b / 16) :: UInt8.ofNat (b % 16 * 16 + c / 4)
        :: UInt8.ofNat (c % 4 * 64 + d) :: rest) =
      symbol a :: symbol b :: symbol c :: symbol d :: encode rest := by
  rw [encode, UInt8.toNat_ofNat_of_lt' (show a * 4 + b / 16 < 256 by omega),
    UInt8.toNat_ofNat_of_lt' (show b % 16 * 16 + c / 4 < 256 by omega),
    UInt8.toNat_ofNat_of_lt' (show c % 4 * 64 + d < 256 by omega),
    show (a * 4 + b / 16) / 4 = a by omega,
    show (a * 4 + b / 16) % 4 * 16 + (b % 16 * 16 + c / 4) / 16 = b by omega,
    show (b % 16 * 16 + c / 4) % 16 * 4 + (c % 4 * 64 + d) / 64 = c by omega,
    show (c % 4 * 64 + d) % 64 = d by omega]

/-- The values of a last group are those that its bytes are written with. -/
theorem encode_of_lastBytes? {values : List Nat}
    (hvalues : ∀ v ∈ values, v < 64) {bytes : List UInt8}
    (h : lastBytes? values = some bytes) :
    values.length ≤ 4 ∧
      encode bytes = values.map symbol ++ List.replicate
        ((4 - values.length) % 4) '=' := by
  match values, h with
  | [], h =>
    cases h
    exact ⟨by simp, rfl⟩
  | [a, b], h =>
    obtain ⟨ha, hb⟩ : a < 64 ∧ b < 64 := by simpa using hvalues
    rw [lastBytes?] at h
    split at h
    next hzero =>
      cases h
      rw [encode, UInt8.toNat_ofNat_of_lt' (show a * 4 + b / 16 < 256 by omega),
        show (a * 4 + b / 16) / 4 =
          a by omega, show (a * 4 + b / 16) % 4 * 16 = b by omega]
      exact ⟨by simp, rfl⟩
    next => cases h
  | [a, b, c], h =>
    obtain ⟨ha, hb, hc⟩ : a < 64 ∧ b < 64 ∧ c < 64 := by simpa using hvalues
    rw [lastBytes?] at h
    split at h
    next hzero =>
      cases h
      rw [encode, UInt8.toNat_ofNat_of_lt' (show a * 4 + b / 16 < 256 by omega),
        UInt8.toNat_ofNat_of_lt' (show b % 16 * 16 + c / 4 < 256 by omega),
        show (a * 4 + b / 16) / 4 = a by omega,
        show (a * 4 + b / 16) % 4 * 16 + (b % 16 * 16 + c / 4) / 16 = b by omega,
        show (b % 16 * 16 + c / 4) % 16 * 4 = c by omega]
      exact ⟨by simp, rfl⟩
    next => cases h
  | [a, b, c, d], h =>
    obtain ⟨ha, hb, hc, hd⟩ : a < 64 ∧ b < 64 ∧ c < 64 ∧ d < 64 := by
      simpa using hvalues
    cases h
    exact ⟨by simp, encode_values ha hb hc hd []⟩
  | [a], h => cases h
  | _ :: _ :: _ :: _ :: _ :: _, h => cases h

/-! ## The last group -/

/-- What was read of a last group is all of it: its symbols, and after them its
padding. -/
theorem group_of_readLast {offset : Nat} {group : List UInt8} :
    ∀ {index : Nat} {padded : Option Nat} {values : List Nat} {count : Nat},
      readLast offset index padded group = .ok (values, count) →
        group = values.map code ++ List.replicate count padding ∧
        (∀ v ∈ values, v < 64) ∧ (padded ≠ none → values = []) := by
  induction group with
  | nil =>
    intro index padded values count h
    cases h
    exact ⟨rfl, List.forall_mem_nil _, fun _ => rfl⟩
  | cons b group ih =>
    intro index padded values count h
    unfold readLast at h
    split at h
    next hb =>
      split at h
      next => cases h
      next =>
        obtain ⟨⟨values', count'⟩, hrest, h⟩ := exists_of_bind_eq_ok h
        cases h
        -- after padding there is nothing but padding
        obtain ⟨hgroup, -, hpadded⟩ := ih hrest
        have hnil : values = [] :=
          hpadded (by cases padded <;> exact Option.some_ne_none _)
        subst hnil
        refine ⟨?_, List.forall_mem_nil _, fun _ => rfl⟩
        rw [hb, hgroup]
        rfl
    next =>
      cases padded with
      | some place => cases h
      | none =>
        obtain ⟨v, hv, h⟩ := exists_of_bind_eq_ok h
        obtain ⟨⟨values', count'⟩, hrest, h⟩ := exists_of_bind_eq_ok h
        cases h
        obtain ⟨hlt, rfl⟩ := code_of_valueAt hv
        obtain ⟨hgroup, hvalues, -⟩ := ih hrest
        refine ⟨?_, List.forall_mem_cons.mpr ⟨hlt, hvalues⟩,
          fun hne => absurd rfl hne⟩
        rw [hgroup]
        rfl

/-- **A last group that is decoded is the text of what it is decoded to**: bits
that are left over must be zero. -/
theorem codes_of_decodeLast {offset : Nat} {group bytes : List UInt8}
    (hgroup : group.length ≤ 4) (h : decodeLast offset group = .ok bytes) :
    group = codes bytes := by
  unfold decodeLast at h
  obtain ⟨⟨values, count⟩, hread, h⟩ := exists_of_bind_eq_ok h
  dsimp only at h
  obtain ⟨hall, hvalues, -⟩ := group_of_readLast hread
  have hlength : group.length = values.length + count := by
    rw [hall, List.length_append, List.length_map, List.length_replicate]
  split at h
  next => cases h
  next hfew =>
  split at h
  next => cases h
  next hfull =>
    cases hbytes : lastBytes? values with
    | none =>
      rw [hbytes] at h
      cases h
    | some found =>
      rw [hbytes] at h
      cases h
      obtain ⟨hfour, htext⟩ := encode_of_lastBytes? hvalues hbytes
      -- the group is empty or full, so its padding is what its values lack
      have hcount : count = (4 - values.length) % 4 := by
        by_cases hempty : group = []
        · rw [hempty, List.length_nil] at hlength
          omega
        · have htwo : ¬values.length < 2 := fun hlt => hfew ⟨hempty, hlt⟩
          have hpos := List.length_pos_iff.mpr hempty
          omega
      unfold codes
      rw [hall, htext, hcount, List.map_append, List.map_map, List.map_replicate]
      rfl

/-! ## Whole texts -/

/-- **A text that is decoded is the text of what it is decoded to.** -/
theorem codes_of_decodeFrom {offset : Nat} {text bytes : List UInt8}
    (h : decodeFrom offset text = .ok bytes) : text = codes bytes := by
  induction offset, text using decodeFrom.induct generalizing bytes with
  | case1 offset a b c d e rest ih =>
    rw [decodeFrom] at h
    obtain ⟨w, hw, h⟩ := exists_of_bind_eq_ok h
    obtain ⟨x, hx, h⟩ := exists_of_bind_eq_ok h
    obtain ⟨y, hy, h⟩ := exists_of_bind_eq_ok h
    obtain ⟨z, hz, h⟩ := exists_of_bind_eq_ok h
    obtain ⟨more, hmore, h⟩ := exists_of_bind_eq_ok h
    cases h
    obtain ⟨w64, rfl⟩ := code_of_valueAt hw
    obtain ⟨x64, rfl⟩ := code_of_valueAt hx
    obtain ⟨y64, rfl⟩ := code_of_valueAt hy
    obtain ⟨z64, rfl⟩ := code_of_valueAt hz
    unfold codes
    rw [encode_values w64 x64 y64 z64]
    simp only [List.map_cons]
    rw [ih hmore]
    rfl
  | case2 offset group hshort =>
    have hlength : group.length ≤ 4 := by
      rcases group with _ | ⟨a, _ | ⟨b, _ | ⟨c, _ | ⟨d, _ | ⟨e, rest⟩⟩⟩⟩⟩
      case cons.cons.cons.cons.cons => exact (hshort a b c d e rest rfl).elim
      all_goals simp
    rw [decodeFrom] at h
    · exact codes_of_decodeLast hlength h
    · exact hshort

/-- **A text that decodes is the text of its bytes.** -/
theorem codes_of_decode {text bytes : List UInt8}
    (h : decode text = .ok bytes) :
    text = codes bytes := by
  unfold decode at h
  split at h
  next => cases h
  next => exact codes_of_decodeFrom h

/-! ## Canonical texts -/

/-- The standard alphabet: a symbol stands at the place of its value. -/
def alphabet : List Char :=
  "ABCDEFGHIJKLMNOPQRSTUVWXYZabcdefghijklmnopqrstuvwxyz0123456789+/".toList

/-- A text in the only form that some bytes have. It consists of symbols of the
alphabet and up to two padding symbols, in groups of four; each padding symbol
stands for two bits that the last symbol has left over, and these are zero. -/
structure Canonical (text data : List Char) (pads : Nat) : Prop where
  split : text = data ++ List.replicate pads '='
  symbols : ∀ c ∈ data, c ∈ alphabet
  few : pads ≤ 2
  full : text.length % 4 = 0
  leftover : ∀ c ∈ data.getLast?, alphabet.idxOf c % 4 ^ pads = 0

theorem alphabet_eq : alphabet = (List.range 64).map symbol := by
  decide +kernel

/-- A symbol is one of the alphabet. -/
theorem symbol_mem_alphabet {n : Nat} (h : n < 64) : symbol n ∈ alphabet := by
  rw [alphabet_eq]
  exact List.mem_map_of_mem (List.mem_range.mpr h)

/-- No symbol stands for two values. -/
theorem nodup_alphabet : alphabet.Nodup := by
  rw [alphabet_eq]
  refine List.Nodup.map_on ?_ List.nodup_range
  intro n hn k hk heq
  have hcode : code n = code k := congrArg (fun c : Char => UInt8.ofNat c.toNat) heq
  have hvalue := value?_code (List.mem_range.mp hn)
  rw [hcode, value?_code (List.mem_range.mp hk)] at hvalue
  exact (Option.some.inj hvalue).symm

/-- The place of a symbol in the alphabet is its value. -/
theorem idxOf_symbol {n : Nat} (h : n < 64) :
    alphabet.idxOf (symbol n) = n := by
  have hlength : n < alphabet.length := by
    rw [alphabet_eq, List.length_map, List.length_range]
    exact h
  have hget : alphabet[n] = symbol n := by
    simp only [alphabet_eq, List.getElem_map, List.getElem_range]
  rw [← hget]
  exact nodup_alphabet.idxOf_getElem n hlength

/-- Every letter of the alphabet is the symbol of its place. -/
theorem symbol_idxOf {c : Char} (h : c ∈ alphabet) :
    alphabet.idxOf c < 64 ∧ symbol (alphabet.idxOf c) = c := by
  rw [alphabet_eq] at h
  obtain ⟨n, hn, rfl⟩ := List.mem_map.mp h
  have hlt := List.mem_range.mp hn
  rw [idxOf_symbol hlt]
  exact ⟨hlt, rfl⟩

/-- A full group may stand in front. -/
theorem Canonical.group {text data : List Char} {pads : Nat}
    (h : Canonical text data pads) {a b c d : Char} (ha : a ∈ alphabet)
    (hb : b ∈ alphabet) (hc : c ∈ alphabet) (hd : d ∈ alphabet) :
    Canonical (a :: b :: c :: d :: text) (a :: b :: c :: d :: data) pads where
  split := by
    rw [h.split]
    rfl
  symbols := by
    simp only [List.forall_mem_cons]
    exact ⟨ha, hb, hc, hd, h.symbols⟩
  few := h.few
  full := by
    have hfull := h.full
    simp only [List.length_cons]
    omega
  leftover := by
    cases data with
    | cons s data => exact h.leftover
    | nil =>
      -- there is no padding behind full groups
      have hfull := h.full
      have hfew := h.few
      rw [h.split, List.nil_append, List.length_replicate] at hfull
      have hpads : pads = 0 := by omega
      subst hpads
      intro s _
      exact Nat.mod_one _

/-- The text of bytes is canonical. -/
theorem canonical_encode (bytes : List UInt8) :
    ∃ data pads, Canonical (encode bytes) data pads := by
  induction bytes using encode.induct with
  | case1 a b c rest ih =>
    obtain ⟨data, pads, canonical⟩ := ih
    have ha := a.toNat_lt
    have hb := b.toNat_lt
    have hc := c.toNat_lt
    refine ⟨_, pads, canonical.group ?_ ?_ ?_ ?_⟩ <;>
      exact symbol_mem_alphabet (by omega)
  | case2 a b =>
    have ha := a.toNat_lt
    have hb := b.toNat_lt
    have hsymbols :
        ∀ s ∈ [symbol (a.toNat / 4), symbol (a.toNat % 4 * 16 + b.toNat / 16),
        symbol (b.toNat % 16 * 4)], s ∈ alphabet := by
      simp only [List.forall_mem_cons]
      exact ⟨symbol_mem_alphabet (by omega), symbol_mem_alphabet (by omega),
        symbol_mem_alphabet (by omega), List.forall_mem_nil _⟩
    refine ⟨_, 1, rfl, hsymbols, by decide, by simp [encode], ?_⟩
    intro s hs
    cases hs
    show alphabet.idxOf (symbol (b.toNat % 16 * 4)) % 4 ^ 1 = 0
    rw [idxOf_symbol (by omega)]
    omega
  | case3 a =>
    have ha := a.toNat_lt
    have hsymbols : ∀ s ∈ [symbol (a.toNat / 4), symbol (a.toNat % 4 * 16)],
        s ∈ alphabet := by
      simp only [List.forall_mem_cons]
      exact ⟨symbol_mem_alphabet (by omega), symbol_mem_alphabet (by omega),
        List.forall_mem_nil _⟩
    refine ⟨_, 2, rfl, hsymbols, by decide, by simp [encode], ?_⟩
    intro s hs
    cases hs
    show alphabet.idxOf (symbol (a.toNat % 4 * 16)) % 4 ^ 2 = 0
    rw [idxOf_symbol (by omega)]
    omega
  | case4 =>
    refine ⟨[], 0, rfl, List.forall_mem_nil _, by decide, rfl, ?_⟩
    intro s hs
    cases hs

/-- Values with the padding that they need are those of some bytes. The
recursion takes one full group after the other. -/
theorem exists_encode_of_values {pads : Nat} (few : pads ≤ 2) :
    ∀ values : List Nat, (∀ v ∈ values, v < 64) → (values.length + pads) % 4 = 0 →
      (∀ v ∈ values.getLast?, v % 4 ^ pads = 0) →
      ∃ bytes, values.map symbol ++ List.replicate pads '=' = encode bytes
  | a :: b :: c :: d :: rest, hvalues, full, leftover => by
    simp only [List.forall_mem_cons] at hvalues
    obtain ⟨ha, hb, hc, hd, hrest⟩ := hvalues
    have hlast : ∀ v ∈ rest.getLast?, v % 4 ^ pads = 0 := by
      intro v hv
      cases rest with
      | nil => cases hv
      | cons e rest => exact leftover v hv
    simp only [List.length_cons] at full
    obtain ⟨bytes, htext⟩ := exists_encode_of_values few rest hrest (by omega) hlast
    refine ⟨_, Eq.trans ?_ (encode_values ha hb hc hd bytes).symm⟩
    rw [← htext]
    rfl
  | [a, b, c], hvalues, full, leftover => by
    have hpads : pads = 1 := by
      simp only [List.length_cons, List.length_nil] at full
      omega
    subst hpads
    exact ⟨_, (encode_of_lastBytes? hvalues (if_pos (leftover c rfl))).2.symm⟩
  | [a, b], hvalues, full, leftover => by
    have hpads : pads = 2 := by
      simp only [List.length_cons, List.length_nil] at full
      omega
    subst hpads
    exact ⟨_, (encode_of_lastBytes? hvalues (if_pos (leftover b rfl))).2.symm⟩
  | [a], _, full, _ => by
    simp only [List.length_cons, List.length_nil] at full
    omega
  | [], _, full, _ => by
    have hpads : pads = 0 := by
      simp only [List.length_nil] at full
      omega
    subst hpads
    exact ⟨[], rfl⟩

/-- **The canonical texts are those of bytes.** -/
theorem canonical_iff {text : List Char} :
    (∃ data pads, Canonical text data pads) ↔ ∃ bytes, text = encode bytes := by
  constructor
  · rintro ⟨data, pads, canonical⟩
    have hdata : (data.map alphabet.idxOf).map symbol = data := by
      rw [List.map_map]
      have hid : ∀ c ∈ data, (symbol ∘ alphabet.idxOf) c = id c :=
        fun c hc => (symbol_idxOf (canonical.symbols c hc)).2
      rw [List.map_congr_left hid, List.map_id]
    have hvalues : ∀ v ∈ data.map alphabet.idxOf, v < 64 := by
      rw [List.forall_mem_map]
      exact fun c hc => (symbol_idxOf (canonical.symbols c hc)).1
    have hfull := canonical.full
    rw [canonical.split, List.length_append, List.length_replicate] at hfull
    have hlast : ∀ v ∈ (data.map alphabet.idxOf).getLast?, v % 4 ^ pads = 0 := by
      intro v hv
      rw [List.getLast?_map] at hv
      obtain ⟨c, hc, rfl⟩ := Option.map_eq_some_iff.mp hv
      exact canonical.leftover c hc
    obtain ⟨bytes, hbytes⟩ :=
      exists_encode_of_values canonical.few (data.map alphabet.idxOf)
      hvalues (by rw [List.length_map]; exact hfull) hlast
    refine ⟨bytes, ?_⟩
    rw [canonical.split, ← hbytes, hdata]
  · rintro ⟨bytes, rfl⟩
    exact canonical_encode bytes

end Base64

/-! ## Artifacts -/

namespace Artifact

open Base64 (Canonical)

/-- An artifact is unpacked if its payload is the text of the bytes that come
out. -/
theorem unpack_eq_ok_iff {a : Artifact} {bytes : List UInt8} :
    a.unpack = .ok bytes ↔ a.payload.toList = Base64.encode bytes := by
  constructor
  · intro h
    unfold unpack at h
    cases hdecode : Base64.decode a.payload.toUTF8.data.toList with
    | error fault =>
      rw [hdecode] at h
      cases h
    | ok found =>
      rw [hdecode] at h
      cases h
      have hbytes : (String.ofList (Base64.encode bytes)).toUTF8.data.toList =
          Base64.codes bytes :=
        Base64.toUTF8_ascii (Base64.encode_ascii bytes)
      have hsame := (Base64.codes_of_decode hdecode).trans hbytes.symm
      have hpayload : a.payload = String.ofList (Base64.encode bytes) :=
        String.toByteArray_inj.mp (ByteArray.ext (Array.toList_inj.mp hsame))
      rw [hpayload, String.toList_ofList]
  · intro h
    have hpack : pack a.name bytes = a := by
      unfold pack
      rw [← h, String.ofList_toList]
    rw [← hpack]
    exact unpack_pack a.name bytes

/-- An artifact that is not unpacked is reported under its name. -/
theorem message_of_unpack {a : Artifact} {failure : Failure}
    (h : a.unpack = .error failure) :
    failure.message = "artifact '" ++ a.name ++ "' has a malformed payload" := by
  unfold unpack at h
  cases hdecode : Base64.decode a.payload.toUTF8.data.toList with
  | ok found =>
    rw [hdecode] at h
    cases h
  | error fault =>
    rw [hdecode] at h
    cases h
    rfl

/-- **An artifact is a faithful envelope.** What was packed is unpacked as it
was. An artifact that is unpacked is the one that its bytes are packed to, so
that no two payloads stand for the same bytes. And it is unpacked exactly if its
payload is canonical; any other payload is refused. -/
theorem pack_faithful :
    (∀ name bytes, (pack name bytes).unpack = .ok bytes) ∧
      (∀ (a : Artifact) (bytes : List UInt8), a.unpack = .ok bytes →
        pack a.name bytes = a) ∧
      (∀ (a b : Artifact) (bytes : List UInt8), a.unpack = .ok bytes →
        b.unpack = .ok bytes → a.payload = b.payload) ∧
      ∀ a : Artifact,
        (∃ data pads, Canonical a.payload.toList data pads) ∧
            (∃ bytes, a.unpack = .ok bytes) ∨
          (¬∃ data pads, Canonical a.payload.toList data pads) ∧
            ∃ failure, a.unpack = .error failure ∧
              failure.message = "artifact '" ++ a.name ++
                "' has a malformed payload" := by
  refine ⟨unpack_pack, ?_, ?_, ?_⟩
  · intro a bytes h
    unfold pack
    rw [← unpack_eq_ok_iff.mp h, String.ofList_toList]
  · intro a b bytes ha hb
    rw [← String.toList_inj, unpack_eq_ok_iff.mp ha, unpack_eq_ok_iff.mp hb]
  · intro a
    rw [Base64.canonical_iff]
    cases h : a.unpack with
    | ok bytes => exact Or.inl ⟨⟨bytes, unpack_eq_ok_iff.mp h⟩, bytes, rfl⟩
    | error failure =>
      refine Or.inr ⟨?_, failure, rfl, message_of_unpack h⟩
      rintro ⟨bytes, hbytes⟩
      rw [unpack_eq_ok_iff.mpr hbytes] at h
      cases h

/-- Of the ways to write one byte only one is unpacked, and it comes back:
padding that is missing, short or in the wrong place, a bit left over, a blank
or a foreign symbol is refused. -/
theorem pack_faithful_byte :
    let payloads := ["Zg==", "Zg", "Zg=", "Zg=a", "Zh==", "Zg ==", "Zg==\n", "Z%=="]
    (payloads.map fun payload => (Artifact.mk "unit" payload).unpack.toOption) =
        [some [102], none, none, none, none, none, none, none] ∧
      pack "unit" [102] = ⟨"unit", "Zg=="⟩ ∧
      (∀ a : Artifact, a.unpack = .ok [102] → a.payload = "Zg==") ∧
      ∃ failure, (Artifact.mk "unit" "Zh==").unpack = .error failure ∧
        failure.message = "artifact 'unit' has a malformed payload" := by
  have hunpack : (Artifact.mk "unit" "Zg==").unpack = .ok [102] := rfl
  obtain ⟨-, hpack, hpayload, hrefused⟩ := pack_faithful
  refine ⟨by decide +kernel, hpack _ _ hunpack,
    fun a ha => hpayload a _ _ ha hunpack, ?_⟩
  rcases hrefused ⟨"unit", "Zh=="⟩ with ⟨-, bytes, hbytes⟩ | ⟨-, hfailure⟩
  · cases hbytes
  · exact hfailure

end Artifact

end DetectorBench
