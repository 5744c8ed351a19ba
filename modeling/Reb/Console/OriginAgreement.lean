/-
# Console.OriginAgreement -- both sides admit the same origins

Every check of the browser has its counterpart in the backend: the loop over the bytes of a
name, the octets of a numeric host, the port and the IPv6 literal.  `origins_agree` puts
them together and says what an admitted literal is.
-/
import Reb.Console.CanonicalLiteral

namespace Reb.Console.Origin

set_option autoImplicit false

open Theory Theory.Decimal Theory.Ipv6 Theory.StringView Theory.Utf8

/-! ## Ports -/

/-- Digits without a leading zero are not zero. -/
theorem positional_ne_zero {port : List UInt8} (some : port ≠ []) (digits : port.all isDigit = true)
    (lead : port.head? ≠ Option.some (byte '0')) : positional 0 port ≠ 0 := by
  obtain ⟨first, rest, rfl⟩ := List.exists_cons_of_ne_nil some
  rw [List.all_cons, Bool.and_eq_true, isDigit_iff] at digits
  have other : first.toNat ≠ 48 := by
    intro zero
    have same : first = byte '0' := UInt8.toNat.inj (zero.trans (by decide +kernel))
    exact lead (by rw [same]; rfl)
  have least := le_positional (0 * 10 + (first.toNat - 48)) rest
  rw [positional_cons]
  omega

theorem portAdmitted_eq (port : List UInt8) (default_port : Nat) :
    Browser.portAdmitted port default_port = Backend.portAdmitted port default_port := by
  rw [Browser.portAdmitted, Backend.portAdmitted]
  by_cases refused : port = [] ∨ 5 < port.length ∨ port.head? = some (byte '0')
  · rw [if_pos refused]
    rcases refused with rfl | long | zero
    · simp
    · simp [long]
    · simp [zero]
  · rw [if_neg refused]
    simp only [not_or] at refused
    cases digits : port.all isDigit with
    | false => simp
    | true =>
        have nonzero : (positional 0 port != 0) = true := by
          simpa using positional_ne_zero refused.1 digits refused.2.2
        have some : port.isEmpty = false := by simpa using refused.1
        have lead : (port.head? == Option.some (byte '0')) = false := by simpa using refused.2.2
        have short : decide (5 < port.length) = false := by simpa using refused.2.1
        simp only [nonzero, some, lead, short, Bool.not_true, Bool.false_or, Bool.not_false,
          Bool.true_and, Bool.false_eq_true, if_false]

/-! ## Names -/

theorem octetAdmitted_iff {octet : List UInt8} :
    Backend.octetAdmitted octet = true ↔
      octet ≠ [] ∧ octet.length ≤ 3 ∧ ¬ (1 < octet.length ∧ octet.head? = some (byte '0')) ∧
        octet.all isDigit = true ∧ positional 0 octet ≤ 255 := by
  rw [not_and_or, Nat.not_lt]
  simp [Backend.octetAdmitted, and_assoc]

/-- The loop over the octets counts to four. -/
theorem octetsAdmitted_eq (octets : List (List UInt8)) (count : Nat) (within : count ≤ 4) :
    Browser.octetsAdmitted octets count
      = (octets.length + count == 4 && octets.all Backend.octetAdmitted) := by
  induction octets generalizing count with
  | nil => simp [Browser.octetsAdmitted]
  | cons octet octets ih =>
      rw [Browser.octetsAdmitted, List.length_cons, List.all_cons]
      by_cases full : count = 4
      · rw [if_pos (.inl full), full]
        simp
      · by_cases refused : octet = [] ∨ 3 < octet.length ∨
          1 < octet.length ∧ octet.head? = some (byte '0')
        · have none : Backend.octetAdmitted octet = false := by
            rw [← Bool.not_eq_true, octetAdmitted_iff]
            rintro ⟨some, short, lead, _⟩
            exact refused.elim some (·.elim (Nat.not_lt.2 short) lead)
          rw [if_pos (.inr refused), none]
          simp
        · rw [if_neg (not_or.2 ⟨full, refused⟩)]
          simp only [not_or] at refused
          by_cases digits : octet.all isDigit = true
          · rw [digits, if_neg (by simp)]
            by_cases large : 255 < positional 0 octet
            · have none : Backend.octetAdmitted octet = false := by
                rw [← Bool.not_eq_true, octetAdmitted_iff]
                exact fun admitted => Nat.not_lt.2 admitted.2.2.2.2 large
              rw [if_pos large, none]
              simp
            · have one : Backend.octetAdmitted octet = true :=
                octetAdmitted_iff.2 ⟨refused.1, Nat.not_lt.1 refused.2.1, refused.2.2, digits,
                  Nat.not_lt.1 large⟩
              rw [if_neg large, ih (count + 1) (by omega), one, Bool.true_and, Nat.add_assoc,
                Nat.add_comm 1]
          · have none : Backend.octetAdmitted octet = false := by
              rw [← Bool.not_eq_true, octetAdmitted_iff]
              exact fun admitted => digits admitted.2.2.2.1
            rw [Bool.not_eq_true] at digits
            rw [digits, if_pos (by simp), none]
            simp

/-- The text behind the last dot is the last label. -/
theorem last_label (host : List UInt8) :
    (rfind host (byte '.')).elim host (fun dot => host.drop (dot + 1))
      = (host.splitOn (byte '.')).getLast?.getD host := by
  obtain ⟨before, after, rfl, free, rfl | ⟨start, rfl⟩⟩ := exists_last_cut (byte '.') host
  · rw [List.nil_append, rfind_free free, List.splitOn_eq_singleton free]
    rfl
  · rw [List.append_assoc, List.singleton_append, rfind_at free, List.splitOn_append_cons_self,
      List.splitOn_eq_singleton free, List.getLast?_concat, Option.getD_some, Option.elim_some,
      ← List.singleton_append, ← List.append_assoc, List.drop_left' (by simp)]

theorem canonicalHostName_eq (host : List UInt8) :
    Browser.canonicalHostName host = Backend.canonicalHostName host := by
  rw [Browser.canonicalHostName, Backend.canonicalHostName, last_label,
    octetsAdmitted_eq _ 0 (by decide)]
  generalize (host.splitOn (byte '.')).getLast?.getD host = last
  cases prefixed : (ascii "0x").isPrefixOf last with
  | true => simp [Bool.or_comm]
  | false => simp

/-- The bytes of a name. -/
def nameByte (character : UInt8) : Bool :=
  byte 'a' ≤ character && character ≤ byte 'z' || isDigit character || character == byte '.' ||
    character == byte '-'

theorem nameBytes_iff (host : List UInt8) (previous_dot : Bool) :
    Browser.nameBytes host previous_dot = true ↔
      host.all nameByte = true ∧ ¬ (previous_dot = true ∧ host.head? = some (byte '.')) ∧
        ¬ [byte '.', byte '.'] <:+: host := by
  induction host generalizing previous_dot with
  | nil => simp [Browser.nameBytes]
  | cons character rest ih =>
      have shape : (!(byte 'a' ≤ character && character ≤ byte 'z') && !isDigit character
          && character != byte '.' && character != byte '-') = !nameByte character := by
        simp [nameByte, bne, Bool.and_assoc]
      have twice : [byte '.', byte '.'] <+: character :: rest ↔
          character = byte '.' ∧ rest.head? = some (byte '.') := by
        cases rest with
        | nil => simp
        | cons next rest => simp [eq_comm]
      rw [Browser.nameBytes, shape, List.infix_cons_iff, twice, List.all_cons, List.head?_cons, Option.some.injEq]
      cases good : nameByte character with
      | false => simp
      | true =>
          rw [if_neg (by simp)]
          by_cases dot : character = byte '.'
          · cases previous_dot with
            | true => simp [dot]
            | false => simp [dot, ih]
          · simp [dot, ih]

theorem hostName_eq (host : List UInt8) : Browser.hostName host = Backend.hostName host := by
  rw [Browser.hostName, Backend.hostName, ← canonicalHostName_eq]
  by_cases refused : host = [] ∨ host.head? = some (byte '.') ∨ host.head? = some (byte '-') ∨
      host.getLast? = some (byte '-') ∨ host.getLast? = some (byte '.')
  · rw [if_pos refused]
    rcases refused with rfl | ends | ends | ends | ends
    · simp
    all_goals simp [ends]
  · rw [if_neg refused]
    simp only [not_or] at refused
    have names := nameBytes_iff host false
    simp only [Bool.false_eq_true, false_and, not_false_eq_true, true_and] at names
    have bytes : (host.all fun character => byte 'a' ≤ character && character ≤ byte 'z' ||
        isDigit character || character == byte '.' || character == byte '-')
        = host.all nameByte := rfl
    rw [bytes, Bool.eq_iff_iff, Bool.and_eq_true, names]
    simp [refused, and_comm]

/-! ## Hosts -/

theorem literal_eq (text : List UInt8) : Browser.canonicalIPv6 text = Backend.canonicalIpv6 text := by
  rw [Bool.eq_iff_iff, canonicalIPv6_iff, canonicalIpv6_iff]

theorem find_cons {first value : UInt8} (other : first ≠ value) (rest : List UInt8) :
    StringView.find (first :: rest) value 0 = (StringView.find rest value 0).map (· + 1) := by
  rcases find_cases rest value with ⟨none, free⟩ | ⟨before, after, rfl, free, place⟩
  · have all : ∀ b ∈ first :: rest, b ∉ [value] := by
      intro b inside same
      rw [List.mem_singleton] at same
      subst same
      exact (List.mem_cons.1 inside).elim (Ne.symm other) free
    rw [none, StringView.find, findFirstOf_none all]
    rfl
  · have all : ∀ b ∈ first :: before, b ∉ [value] := by
      intro b inside same
      rw [List.mem_singleton] at same
      subst same
      exact (List.mem_cons.1 inside).elim (Ne.symm other) free
    rw [place, ← List.cons_append, StringView.find, findFirstOf_some all List.mem_cons_self]
    rfl

theorem hostAdmitted_eq (host : List UInt8) (default_port : Nat) :
    Browser.hostAdmitted host default_port = Backend.hostAdmitted host default_port := by
  rw [Browser.hostAdmitted, Backend.hostAdmitted]
  by_cases refused : host = [] ∨ 255 < host.length
  · rw [if_pos refused, if_pos (by simpa using refused)]
  · have kept : ¬ (host.isEmpty || decide (255 < host.length)) = true := by
      rwa [Bool.or_eq_true, List.isEmpty_iff, decide_eq_true_eq]
    rw [if_neg refused, if_neg kept]
    obtain ⟨first, rest, rfl⟩ := List.exists_cons_of_ne_nil (not_or.1 refused).1
    by_cases bracket : first = byte '['
    · have other : byte '[' ≠ byte ']' := by decide +kernel
      subst bracket
      have first : (byte '[' :: rest).head? = some (byte '[') := rfl
      rw [if_pos first, if_pos first, find_cons other, List.drop_one, List.tail_cons]
      dsimp only
      cases StringView.find rest (byte ']') 0 with
      | none => rfl
      | some close =>
          have literal : substr (byte '[' :: rest) 1 (close + 1 - 1) = rest.take close := rfl
          dsimp only [Option.map_some]
          rw [literal, literal_eq, List.drop_succ_cons]
          cases Backend.canonicalIpv6 (rest.take close) with
          | false => rfl
          | true =>
              cases rest.drop (close + 1) with
              | nil => rfl
              | cons mark port =>
                  dsimp only
                  rw [portAdmitted_eq, ite_not]
    · rw [if_neg (by simpa using bracket), if_neg (by simpa using bracket)]
      cases StringView.find (first :: rest) colon 0 with
      | none => exact hostName_eq _
      | some at_ =>
          dsimp only
          rw [hostName_eq, portAdmitted_eq, substr, List.drop_zero]

/-! ## Origins -/

/-- The literal between the brackets of an origin. -/
def Literal (origin literal : List UInt8) : Prop :=
  byte ']' ∉ literal ∧ ∃ scheme rest, (scheme = ascii "http://" ∨ scheme = ascii "https://") ∧
    origin = scheme ++ byte '[' :: (literal ++ byte ']' :: rest)

theorem hostAdmitted_literal {literal rest : List UInt8} {default_port : Nat}
    (free : byte ']' ∉ literal)
    (admitted : Browser.hostAdmitted (byte '[' :: (literal ++ byte ']' :: rest)) default_port = true) :
    Browser.canonicalIPv6 literal = true := by
  have other : byte '[' ≠ byte ']' := by decide +kernel
  have place : StringView.find (literal ++ byte ']' :: rest) (byte ']') 0 = some literal.length :=
    findFirstOf_some (fun b inside same => free (List.mem_singleton.1 same ▸ inside)) List.mem_cons_self
  have cut : substr (byte '[' :: (literal ++ byte ']' :: rest)) 1 (literal.length + 1 - 1) = literal := by
    rw [substr, List.drop_succ_cons, List.drop_zero, Nat.add_sub_cancel, List.take_left]
  rw [Browser.hostAdmitted] at admitted
  split at admitted
  · cases admitted
  · rw [if_pos List.head?_cons, find_cons other, place] at admitted
    dsimp only [Option.map_some] at admitted
    rw [cut] at admitted
    cases canonical : Browser.canonicalIPv6 literal with
    | true => rfl
    | false =>
        rw [canonical] at admitted
        cases admitted

theorem literal_canonical {origin literal : List UInt8}
    (admitted : Browser.isValidNativeConsoleDocumentStartOrigin origin = true)
    (has : Literal origin literal) :
    ∃ pieces, Address pieces ∧ Denotes literal pieces ∧ IsCanonical literal pieces := by
  obtain ⟨free, scheme, rest, scheme_is, rfl⟩ := has
  have http : ascii "http://" = [104, 116, 116, 112, 58, 47, 47] := by decide +kernel
  have https : ascii "https://" = [104, 116, 116, 112, 115, 58, 47, 47] := by decide +kernel
  have accepted : Browser.canonicalIPv6 literal = true := by
    rw [Browser.isValidNativeConsoleDocumentStartOrigin, http, https] at admitted
    rcases scheme_is with rfl | rfl
    · rw [http] at admitted
      exact hostAdmitted_literal free admitted
    · rw [https] at admitted
      exact hostAdmitted_literal free admitted
  obtain ⟨pieces, address, canonical⟩ := (canonicalIPv6_iff literal).1 accepted
  exact ⟨pieces, address, canonical_denotes address canonical, canonical⟩

/-- The browser and the backend admit the same origins.  A literal of an admitted origin is
the canonical text of the address it denotes, so no address has two of them. -/
theorem origins_agree :
    (∀ origin, Browser.isValidNativeConsoleDocumentStartOrigin origin
      = Backend.documentStartOrigin origin) ∧
    (∀ origin literal, Browser.isValidNativeConsoleDocumentStartOrigin origin = true →
      Literal origin literal →
      ∃ pieces, Address pieces ∧ Denotes literal pieces ∧ IsCanonical literal pieces) ∧
    (∀ origin other literal second pieces,
      Browser.isValidNativeConsoleDocumentStartOrigin origin = true →
      Browser.isValidNativeConsoleDocumentStartOrigin other = true →
      Literal origin literal → Literal other second → Denotes literal pieces →
      Denotes second pieces → literal = second) := by
  refine ⟨?_, ?_, ?_⟩
  · intro origin
    rw [Browser.isValidNativeConsoleDocumentStartOrigin, Backend.documentStartOrigin,
      hostAdmitted_eq, hostAdmitted_eq]
  · intro origin literal admitted has
    exact literal_canonical admitted has
  · intro origin other literal second pieces admitted valid has contains denotes means
    obtain ⟨first, _, first_denoted, first_canonical⟩ := literal_canonical admitted has
    obtain ⟨last, _, last_denoted, last_canonical⟩ := literal_canonical valid contains
    have same : first = last :=
      (denotes_unique first_denoted denotes).trans (denotes_unique means last_denoted)
    subst same
    exact canonical_unique first_canonical last_canonical

end Reb.Console.Origin
