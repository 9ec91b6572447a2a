import Clearing.Text.Base64
import Clearing.Text.Blank

/-!
# Base64 can be read back

Three bytes are four numbers below sixty-four, and these are three bytes again.  A
padded rest is read by its padding, and the bits that padding leaves unused are zero, so
nothing but the form of a document is read as the document (`encode_of_decode?`).  No
Base64 form has a blank in it, so an envelope keeps all of it.
-/

namespace Clearing.Text.Base64

private theorem lowByte_toNat (byte : UInt8) : lowByte byte.toNat = byte :=
  UInt8.ofNat_toNat

theorem decode?_encode (bytes : Bytes) : decode? (encode bytes) = some bytes := by
  induction bytes using encode.induct with
  | case1 => rfl
  | case2 a =>
      have ha := a.toNat_lt
      have hfirst := value?_symbol (n := a.toNat / 4) (by omega)
      have hsecond := value?_symbol (n := a.toNat % 4 * 16) (by omega)
      have hunused : a.toNat % 4 * 16 % 16 = 0 := by omega
      have hwhole : a.toNat / 4 * 4 + a.toNat % 4 * 16 / 16 = a.toNat := by omega
      simp only [encode, decode?, hfirst, hsecond, Option.bind_eq_bind, Option.bind_some,
        and_self, if_true, hunused, hwhole, lowByte_toNat]
      rfl
  | case3 a b =>
      have ha := a.toNat_lt
      have hb := b.toNat_lt
      have hfirst := value?_symbol (n := a.toNat / 4) (by omega)
      have hsecond := value?_symbol (n := a.toNat % 4 * 16 + b.toNat / 16) (by omega)
      have hthird := value?_symbol (n := b.toNat % 16 * 4) (by omega)
      have hsymbol := symbol_ne_padding (n := b.toNat % 16 * 4) (by omega)
      have hunused : b.toNat % 16 * 4 % 4 = 0 := by omega
      have hwhole : a.toNat / 4 * 4 + (a.toNat % 4 * 16 + b.toNat / 16) / 16 = a.toNat := by omega
      have hnext : (a.toNat % 4 * 16 + b.toNat / 16) % 16 * 16 + b.toNat % 16 * 4 / 4 = b.toNat := by
        omega
      simp only [encode, decode?, hfirst, hsecond, hthird, Option.bind_eq_bind, Option.bind_some,
        and_self, if_true, if_neg hsymbol, hunused, hwhole, hnext, lowByte_toNat]
      rfl
  | case4 a b c rest ih =>
      have ha := a.toNat_lt
      have hb := b.toNat_lt
      have hc := c.toNat_lt
      have hfirst := value?_symbol (n := a.toNat / 4) (by omega)
      have hsecond := value?_symbol (n := a.toNat % 4 * 16 + b.toNat / 16) (by omega)
      have hthird := value?_symbol (n := b.toNat % 16 * 4 + c.toNat / 64) (by omega)
      have hfourth := value?_symbol (n := c.toNat % 64) (by omega)
      have hsymbol := symbol_ne_padding (n := c.toNat % 64) (by omega)
      have hwhole : a.toNat / 4 * 4 + (a.toNat % 4 * 16 + b.toNat / 16) / 16 = a.toNat := by omega
      have hnext : (a.toNat % 4 * 16 + b.toNat / 16) % 16 * 16 +
          (b.toNat % 16 * 4 + c.toNat / 64) / 4 = b.toNat := by omega
      have hlast : (b.toNat % 16 * 4 + c.toNat / 64) % 4 * 64 + c.toNat % 64 = c.toNat := by omega
      simp only [encode, decode?, hfirst, hsecond, hthird, hfourth, ih, Option.bind_eq_bind,
        Option.bind_some, hsymbol, false_and, if_false, hwhole, hnext, hlast, lowByte_toNat]
      rfl

/-! ## One form for every document -/

/-- A symbol is the symbol for its number. -/
theorem symbol_of_value? {byte : UInt8} {n : Nat} (hvalue : value? byte = some n) :
    n < 64 ∧ symbol n = byte := by
  have hall : ∀ code : Fin 256, ∀ k ∈ value? (UInt8.ofNat code),
      k < 64 ∧ symbol k = UInt8.ofNat code := by
    decide +kernel
  have hbyte : UInt8.ofNat (⟨byte.toNat, byte.toNat_lt⟩ : Fin 256) = byte := UInt8.ofNat_toNat
  have hsymbol := hall ⟨byte.toNat, byte.toNat_lt⟩ n (by rw [hbyte]; exact hvalue)
  rw [hbyte] at hsymbol
  exact hsymbol

private theorem toNat_lowByte {n : Nat} (hn : n < 256) : (lowByte n).toNat = n :=
  UInt8.toNat_ofNat_of_lt hn

/-- **Only the Base64 form of a document is read as the document.** -/
theorem encode_of_decode? {form bytes : Bytes} (hdecode : decode? form = some bytes) :
    encode bytes = form := by
  induction form using decode?.induct generalizing bytes with
  | case1 =>
      cases hdecode
      rfl
  | case2 p q r s rest ih =>
      simp only [decode?, Option.bind_eq_bind, Option.bind_eq_some_iff] at hdecode
      obtain ⟨first, hfirst, second, hsecond, hdecode⟩ := hdecode
      obtain ⟨hfirst, rfl⟩ := symbol_of_value? hfirst
      obtain ⟨hsecond, rfl⟩ := symbol_of_value? hsecond
      have ha := toNat_lowByte (n := first * 4 + second / 16) (by omega)
      have hleft : (first * 4 + second / 16) / 4 = first := by omega
      split at hdecode
      · rename_i hlast
        obtain ⟨rfl, rfl⟩ := hlast
        split at hdecode
        · -- two symbols are one byte and four unused bits
          rename_i hpadding
          subst hpadding
          split at hdecode
          · rename_i hunused
            cases hdecode
            have hright : (first * 4 + second / 16) % 4 * 16 = second := by omega
            simp only [encode, ha, hleft, hright]
          · cases hdecode
        · -- three symbols are two bytes and two unused bits
          rw [Option.bind_eq_some_iff] at hdecode
          obtain ⟨third, hthird, hdecode⟩ := hdecode
          obtain ⟨hthird, rfl⟩ := symbol_of_value? hthird
          split at hdecode
          · rename_i hunused
            cases hdecode
            have hb := toNat_lowByte (n := second % 16 * 16 + third / 4) (by omega)
            have hmiddle : (first * 4 + second / 16) % 4 * 16 +
                (second % 16 * 16 + third / 4) / 16 = second := by omega
            have hright : (second % 16 * 16 + third / 4) % 16 * 4 = third := by omega
            simp only [encode, ha, hb, hleft, hmiddle, hright]
          · cases hdecode
      · simp only [Option.bind_eq_some_iff] at hdecode
        obtain ⟨third, hthird, fourth, hfourth, more, hmore, hdecode⟩ := hdecode
        cases hdecode
        obtain ⟨hthird, rfl⟩ := symbol_of_value? hthird
        obtain ⟨hfourth, rfl⟩ := symbol_of_value? hfourth
        have hb := toNat_lowByte (n := second % 16 * 16 + third / 4) (by omega)
        have hc := toNat_lowByte (n := third % 4 * 64 + fourth) (by omega)
        have hmiddle : (first * 4 + second / 16) % 4 * 16 +
            (second % 16 * 16 + third / 4) / 16 = second := by omega
        have hright : (second % 16 * 16 + third / 4) % 16 * 4 +
            (third % 4 * 64 + fourth) / 64 = third := by omega
        have hend : (third % 4 * 64 + fourth) % 64 = fourth := by omega
        simp only [encode, ha, hb, hc, hleft, hmiddle, hright, hend, ih hmore]
  | case3 form hnil hlong =>
      rw [decode?] at hdecode
      · cases hdecode
      · exact hnil
      · exact hlong

/-! ## Envelopes -/

theorem not_blank_symbol {n : Nat} (hn : n < 64) : isEnvelopeBlank (symbol n) = false := by
  have hall : ∀ k : Fin 64, isEnvelopeBlank (symbol k) = false := by decide +kernel
  exact hall ⟨n, hn⟩

/-- No Base64 form has a blank in it. -/
theorem not_blank_of_mem_encode {bytes : Bytes} {byte : UInt8} (hbyte : byte ∈ encode bytes) :
    isEnvelopeBlank byte = false := by
  induction bytes using encode.induct with
  | case1 => cases hbyte
  | case2 a =>
      have ha := a.toNat_lt
      simp only [encode, List.mem_cons, List.not_mem_nil, or_false] at hbyte
      rcases hbyte with rfl | rfl | rfl | rfl
      · exact not_blank_symbol (by omega)
      · exact not_blank_symbol (by omega)
      · rfl
      · rfl
  | case3 a b =>
      have ha := a.toNat_lt
      have hb := b.toNat_lt
      simp only [encode, List.mem_cons, List.not_mem_nil, or_false] at hbyte
      rcases hbyte with rfl | rfl | rfl | rfl
      · exact not_blank_symbol (by omega)
      · exact not_blank_symbol (by omega)
      · exact not_blank_symbol (by omega)
      · rfl
  | case4 a b c rest ih =>
      have ha := a.toNat_lt
      have hb := b.toNat_lt
      have hc := c.toNat_lt
      simp only [encode, List.mem_cons] at hbyte
      rcases hbyte with rfl | rfl | rfl | rfl | hrest
      · exact not_blank_symbol (by omega)
      · exact not_blank_symbol (by omega)
      · exact not_blank_symbol (by omega)
      · exact not_blank_symbol (by omega)
      · exact ih hrest

end Clearing.Text.Base64
