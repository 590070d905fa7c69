/-
  PageServer.Proofs.PercentCoding — what is percent-encoded is read as what it was.

  An encoded text is decoded to the bytes of the text (`percentBytes_encode`), and the reader of
  bytes, lenient as it is with other spellings, takes the UTF-8 of a text for that text
  (`decodeLenient_utf8`). So decoding undoes encoding (`percentDecode_encode`), and a text without
  percent signs stands for itself (`percentDecode_of_not_mem`). No text but the empty one is decoded
  to nothing (`percentDecode_ne_nil`).
-/

import PageServer.Text.Percent

namespace PageServer.Text

/-! ## The bytes of characters -/

section

variable {done : List Char} {rest : List UInt8}

theorem lenientAfter_ascii {n : Nat} (h : n < 0x80) :
    lenientAfter done 0 0 (UInt8.ofNat n :: rest) = lenientAfter (Char.ofNat n :: done) 0 0 rest := by
  have hn : (UInt8.ofNat n).toNat = n := UInt8.toNat_ofNat_of_lt' (Nat.lt_trans h (by decide))
  simp only [lenientAfter, hn, lenientStart?, if_pos h]

/-- A first byte says how many bytes follow, and holds the first bits. -/
theorem lenientAfter_first {b m code : Nat} (hb : b < UInt8.size) (h : lenientStart? b = some (m + 1, code)) :
    lenientAfter done 0 0 (UInt8.ofNat b :: rest) = lenientAfter done (m + 1) code rest := by
  simp only [lenientAfter, UInt8.toNat_ofNat_of_lt' hb, h]

theorem lenientAfter_first_of_two {bits : Nat} (h : bits < 32) :
    lenientAfter done 0 0 (UInt8.ofNat (bits + 0xC0) :: rest) = lenientAfter done 1 bits rest := by
  refine lenientAfter_first (Nat.lt_trans (Nat.add_lt_add_right h _) (by decide)) ?_
  rw [lenientStart?, if_neg (by omega), if_pos (by omega), Nat.add_sub_cancel]

theorem lenientAfter_first_of_three {bits : Nat} (h : bits < 16) :
    lenientAfter done 0 0 (UInt8.ofNat (bits + 0xE0) :: rest) = lenientAfter done 2 bits rest := by
  refine lenientAfter_first (Nat.lt_trans (Nat.add_lt_add_right h _) (by decide)) ?_
  rw [lenientStart?, if_neg (by omega), if_neg (by omega), if_pos (by omega), Nat.add_sub_cancel]

theorem lenientAfter_first_of_four {bits : Nat} (h : bits < 8) :
    lenientAfter done 0 0 (UInt8.ofNat (bits + 0xF0) :: rest) = lenientAfter done 3 bits rest := by
  refine lenientAfter_first (Nat.lt_trans (Nat.add_lt_add_right h _) (by decide)) ?_
  rw [lenientStart?, if_neg (by omega), if_neg (by omega), if_neg (by omega), if_pos (by omega), Nat.add_sub_cancel]

/-- A byte that follows holds six bits. -/
theorem lenientAfter_next (m code : Nat) {bits : Nat} (h : bits < 0x40) :
    lenientAfter done (m + 2) code (UInt8.ofNat (bits + 0x80) :: rest) =
      lenientAfter done (m + 1) (code * 64 + bits) rest := by
  have hn : (UInt8.ofNat (bits + 0x80)).toNat = bits + 0x80 :=
    UInt8.toNat_ofNat_of_lt' (Nat.lt_trans (Nat.add_lt_add_right h _) (by decide))
  have hrange : 0x80 ≤ bits + 0x80 ∧ bits + 0x80 < 0xC0 := by omega
  rw [lenientAfter]
  simp only [hn, if_pos hrange, Nat.add_sub_cancel]
  rfl

theorem lenientAfter_last (code : Nat) {bits : Nat} (h : bits < 0x40) (hvalid : (code * 64 + bits).isValidChar) :
    lenientAfter done 1 code (UInt8.ofNat (bits + 0x80) :: rest) =
      lenientAfter (Char.ofNat (code * 64 + bits) :: done) 0 0 rest := by
  have hn : (UInt8.ofNat (bits + 0x80)).toNat = bits + 0x80 :=
    UInt8.toNat_ofNat_of_lt' (Nat.lt_trans (Nat.add_lt_add_right h _) (by decide))
  have hrange : 0x80 ≤ bits + 0x80 ∧ bits + 0x80 < 0xC0 := by omega
  rw [lenientAfter]
  simp only [hn, if_pos hrange, Nat.add_sub_cancel, if_pos hvalid]
  rfl

/-- The bytes of a character are read as that character. -/
theorem lenientAfter_utf8 (c : Char) :
    lenientAfter done 0 0 (String.utf8EncodeChar c ++ rest) = lenientAfter (c :: done) 0 0 rest := by
  have hval : c.val.toNat = c.toNat := rfl
  have hvalid : c.toNat.isValidChar := c.valid
  have hmax : c.toNat < 0x110000 := by
    rcases hvalid with h | h <;> omega
  have hc : Char.ofNat c.toNat = c := Char.ofNat_toNat c
  simp only [String.utf8EncodeChar, hval]
  generalize c.toNat = n at *
  split
  · rw [List.singleton_append, lenientAfter_ascii (by omega), hc]
  split
  · have hcode : n / 64 % 32 * 64 + n % 64 = n := by omega
    simp only [List.cons_append, List.nil_append]
    rw [lenientAfter_first_of_two (Nat.mod_lt _ (by decide)),
      lenientAfter_last _ (Nat.mod_lt _ (by decide)) (by rwa [hcode]), hcode, hc]
  split
  · have hcode : (n / 4096 % 16 * 64 + n / 64 % 64) * 64 + n % 64 = n := by omega
    simp only [List.cons_append, List.nil_append]
    rw [lenientAfter_first_of_three (Nat.mod_lt _ (by decide)), lenientAfter_next 0 _ (Nat.mod_lt _ (by decide)),
      lenientAfter_last _ (Nat.mod_lt _ (by decide)) (by rwa [hcode]), hcode, hc]
  · have hcode : ((n / 262144 % 8 * 64 + n / 4096 % 64) * 64 + n / 64 % 64) * 64 + n % 64 = n := by omega
    simp only [List.cons_append, List.nil_append]
    rw [lenientAfter_first_of_four (Nat.mod_lt _ (by decide)), lenientAfter_next 1 _ (Nat.mod_lt _ (by decide)),
      lenientAfter_next 0 _ (Nat.mod_lt _ (by decide)),
      lenientAfter_last _ (Nat.mod_lt _ (by decide)) (by rwa [hcode]), hcode, hc]

end

theorem decodeLenient_utf8 (s : List Char) : decodeLenient (s.flatMap String.utf8EncodeChar) = some s := by
  have hafter : ∀ done, lenientAfter done 0 0 (s.flatMap String.utf8EncodeChar) = some (done.reverse ++ s) := by
    induction s with
    | nil => intro done; simp [lenientAfter]
    | cons c s ih =>
      intro done
      rw [List.flatMap_cons, lenientAfter_utf8, ih]
      simp
  exact hafter []

/-- Bytes are not read without a character coming of them. -/
theorem length_lenientAfter {done t : List Char} {missing code : Nat} {bytes : List UInt8}
    (h : lenientAfter done missing code bytes = some t) :
    done.length ≤ t.length ∧ (bytes ≠ [] → done.length < t.length) := by
  fun_induction lenientAfter done missing code bytes with
  | case1 done code =>
    cases h
    simp
  | case4 done code byte rest b c hstart ih =>
    have hnext := (ih h).1
    rw [List.length_cons] at hnext
    exact ⟨by omega, fun _ => hnext⟩
  | case5 done code byte rest b n c hstart ih =>
    have hrest : rest ≠ [] := by
      rintro rfl
      cases h
    have hnext := (ih h).2 hrest
    exact ⟨by omega, fun _ => hnext⟩
  | case6 done code byte rest b hb c hc ih =>
    have hnext := (ih h).1
    rw [List.length_cons] at hnext
    exact ⟨by omega, fun _ => hnext⟩
  | case8 done code byte rest b m hb c hm ih =>
    have hrest : rest ≠ [] := by
      rintro rfl
      rw [lenientAfter, if_neg hm] at h
      cases h
    have hnext := (ih h).2 hrest
    exact ⟨by omega, fun _ => hnext⟩
  | _ => cases h

/-! ## Hexadecimal digits -/

theorem hexValue?_hexDigit {n : Nat} (h : n < 16) : hexValue? (hexDigit n) = some n := by
  revert n
  decide

theorem isUnreserved_hexDigit {n : Nat} (h : n < 16) : isUnreserved (hexDigit n) = true := by
  revert n
  decide

/-! ## Decoding what was encoded -/

theorem percentBytes_byte (b : UInt8) (done : List UInt8) (rest : List Char) :
    percentBytes done (percentByte b ++ rest) = percentBytes (b :: done) rest := by
  have hb : b.toNat < 256 := b.toNat_lt
  have hvalue : 16 * (b.toNat / 16) + b.toNat % 16 = b.toNat := Nat.div_add_mod _ _
  simp only [percentByte, List.cons_append, List.nil_append, percentBytes,
    hexValue?_hexDigit (show b.toNat / 16 < 16 by omega), hexValue?_hexDigit (Nat.mod_lt _ (by decide))]
  rw [hvalue, UInt8.ofNat_toNat]

theorem percentBytes_other {c : Char} (hc : c ≠ '%') (done : List UInt8) (rest : List Char) :
    percentBytes done (c :: rest) = percentBytes ((String.utf8EncodeChar c).reverse ++ done) rest := by
  rw [percentBytes.eq_3 _ _ _ fun _ _ _ heq _ => hc heq, if_neg hc]

theorem percentBytes_char (c : Char) (done : List UInt8) (rest : List Char) :
    percentBytes done (percentChar c ++ rest) = percentBytes ((String.utf8EncodeChar c).reverse ++ done) rest := by
  have hbytes : ∀ (bytes done : List UInt8),
      percentBytes done (bytes.flatMap percentByte ++ rest) = percentBytes (bytes.reverse ++ done) rest := by
    intro bytes
    induction bytes with
    | nil => intro done; rfl
    | cons b bytes ih =>
      intro done
      rw [List.flatMap_cons, List.append_assoc, percentBytes_byte, ih]
      simp
  unfold percentChar
  split
  · rename_i hfree
    refine percentBytes_other (fun heq => ?_) done rest
    rw [heq] at hfree
    exact absurd hfree (by decide)
  · exact hbytes _ done

/-- An encoded text stands for the bytes of the text. -/
theorem percentBytes_encode (s : List Char) (done : List UInt8) (rest : List Char) :
    percentBytes done (percentEncode s ++ rest) =
      percentBytes ((s.flatMap String.utf8EncodeChar).reverse ++ done) rest := by
  induction s generalizing done with
  | nil => rfl
  | cons c s ih =>
    rw [percentEncode, List.flatMap_cons, List.append_assoc, percentBytes_char, ← percentEncode, ih]
    simp

theorem percentBytes_of_not_mem {s : List Char} (h : '%' ∉ s) (done : List UInt8) :
    percentBytes done s = some (done.reverse ++ s.flatMap String.utf8EncodeChar) := by
  induction s generalizing done with
  | nil => simp [percentBytes]
  | cons c s ih =>
    obtain ⟨hc, hs⟩ := not_or.mp (mt List.mem_cons.mpr h)
    rw [percentBytes_other (Ne.symm hc), ih hs]
    simp

theorem percentDecode_of_not_mem {s : List Char} (h : '%' ∉ s) : percentDecode s = .ok s := by
  rw [percentDecode, percentBytes_of_not_mem h, List.reverse_nil, List.nil_append, Option.bind_some,
    decodeLenient_utf8]

/-- Decoding undoes encoding. -/
theorem percentDecode_encode (s : List Char) : percentDecode (percentEncode s) = .ok s := by
  have hbytes : percentBytes [] (percentEncode s) = some (s.flatMap String.utf8EncodeChar) := by
    have hencode := percentBytes_encode s [] []
    rw [List.append_nil, List.append_nil] at hencode
    rw [hencode, percentBytes, List.reverse_reverse]
  rw [percentDecode, hbytes, Option.bind_some, decodeLenient_utf8]

/-- Every character is read as at least one byte. -/
theorem length_percentBytes {done bytes : List UInt8} {s : List Char} (h : percentBytes done s = some bytes) :
    done.length ≤ bytes.length ∧ (s ≠ [] → done.length < bytes.length) := by
  fun_induction percentBytes done s with
  | case1 done =>
    cases h
    simp
  | case2 done a b rest x y hx hy ih =>
    have hnext := (ih h).1
    rw [List.length_cons] at hnext
    exact ⟨by omega, fun _ => hnext⟩
  | case5 done c rest _ hc ih =>
    have hnext := (ih h).1
    rw [List.length_append, List.length_reverse, String.length_utf8EncodeChar] at hnext
    have hpos := c.utf8Size_pos
    exact ⟨by omega, fun _ => by omega⟩
  | _ => cases h

/-- Only the empty text is decoded to nothing. -/
theorem percentDecode_ne_nil {s t : List Char} (h : percentDecode s = .ok t) (hs : s ≠ []) : t ≠ [] := by
  unfold percentDecode at h
  split at h
  · rename_i t' ht
    cases h
    obtain ⟨bytes, hbytes, hread⟩ := Option.bind_eq_some_iff.mp ht
    have hsome : 0 < bytes.length := (length_percentBytes hbytes).2 hs
    exact List.length_pos_iff.mp ((length_lenientAfter hread).2 (List.length_pos_iff.mp hsome))
  · cases h

/-! ## What encoded texts are made of -/

theorem mem_percentEncode {s : List Char} {c : Char} (h : c ∈ percentEncode s) : isUnreserved c = true ∨ c = '%' := by
  obtain ⟨d, -, hc⟩ := List.mem_flatMap.mp h
  unfold percentChar at hc
  split at hc
  · rename_i hfree
    cases List.mem_singleton.mp hc
    exact .inl hfree
  · obtain ⟨b, -, hc⟩ := List.mem_flatMap.mp hc
    have hb : b.toNat < 256 := b.toNat_lt
    simp only [percentByte, List.mem_cons, List.not_mem_nil, or_false] at hc
    rcases hc with rfl | rfl | rfl
    · exact .inr rfl
    · exact .inl (isUnreserved_hexDigit (by omega))
    · exact .inl (isUnreserved_hexDigit (Nat.mod_lt _ (by decide)))

/-- A sign with a meaning of its own does not occur in an encoded text. -/
theorem not_mem_percentEncode {c : Char} (h : isUnreserved c = false) (hc : c ≠ '%') (s : List Char) :
    c ∉ percentEncode s := by
  intro hmem
  rcases mem_percentEncode hmem with hfree | heq
  · rw [h] at hfree
    cases hfree
  · exact hc heq

theorem percentEncode_ne_nil {s : List Char} (h : s ≠ []) : percentEncode s ≠ [] := by
  intro hnil
  have hdecode := percentDecode_encode s
  rw [hnil] at hdecode
  exact h (Except.ok.inj hdecode).symm

end PageServer.Text
