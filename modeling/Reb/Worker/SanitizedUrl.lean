/-
# Worker.SanitizedUrl -- what a sanitized URL tells

A URL is cut at the first `?` or `#`, and what stands between the scheme and the last `@`
of its authority is left out.  `Parts` names the pieces, `sanitize_parts` says what is kept
of them, and `sanitizeUrl_exact` that nothing else has any effect.
-/
import Reb.Worker.SourceEncoding

namespace Reb.Worker.Source

set_option autoImplicit false

open Reb.Theory.StringView Reb.Theory.Utf8

/-! ## The parts of a URL -/

/-- The text of an http URL: what comes before the last `@` of its authority, the host with
the port, the path, and the query with the fragment. -/
structure Parts (url scheme userinfo host path tail : List UInt8) : Prop where
  text : url = scheme ++ userinfo ++ host ++ path ++ tail
  scheme_is : scheme = httpsScheme ∨ scheme = httpScheme
  userinfo_ends : userinfo = [] ∨ ∃ start, userinfo = start ++ [byte '@']
  userinfo_free : ∀ b ∈ userinfo, b ∉ [byte '/', byte '?', byte '#']
  host_free : ∀ b ∈ host, b ∉ [byte '@', byte '/', byte '?', byte '#']
  path_starts : ∀ b ∈ path.head?, b = byte '/'
  path_free : ∀ b ∈ path, b ∉ [byte '?', byte '#']
  tail_starts : ∀ b ∈ tail.head?, b ∈ [byte '?', byte '#']

/-- The length that `SanitizeUrl` reads off the start of the text; 0 for another scheme. -/
def schemeLength (url : List UInt8) : Nat :=
  if httpsScheme.isPrefixOf url then 8 else if httpScheme.isPrefixOf url then 7 else 0

theorem schemeLength_https (rest : List UInt8) :
    schemeLength (httpsScheme ++ rest) = httpsScheme.length := by
  rw [schemeLength, if_pos (List.isPrefixOf_iff_prefix.2 (List.prefix_append _ _))]
  decide

theorem schemeLength_http (rest : List UInt8) :
    schemeLength (httpScheme ++ rest) = httpScheme.length := by
  have https : httpsScheme = [0x68, 0x74, 0x74, 0x70, 0x73, 0x3a, 0x2f, 0x2f] := by decide
  have http : httpScheme = [0x68, 0x74, 0x74, 0x70, 0x3a, 0x2f, 0x2f] := by decide
  have other : ¬ httpsScheme.isPrefixOf (httpScheme ++ rest) = true := by
    rw [https, http]
    exact Bool.false_ne_true
  rw [schemeLength, if_neg other,
    if_pos (List.isPrefixOf_iff_prefix.2 (List.prefix_append _ _))]
  decide

/-- A text of no accepted scheme has no parts, and every other one has. -/
theorem scheme_of_length {url : List UInt8} (known : schemeLength url ≠ 0) :
    ∃ scheme rest, url = scheme ++ rest ∧ (scheme = httpsScheme ∨ scheme = httpScheme) := by
  unfold schemeLength at known
  split at known
  · next starts =>
      obtain ⟨rest, rfl⟩ := List.isPrefixOf_iff_prefix.1 starts
      exact ⟨_, rest, rfl, .inl rfl⟩
  · split at known
    · next starts =>
        obtain ⟨rest, rfl⟩ := List.isPrefixOf_iff_prefix.1 starts
        exact ⟨_, rest, rfl, .inr rfl⟩
    · exact absurd rfl known

section Parts

variable {url scheme userinfo host path tail : List UInt8}

theorem exists_parts (known : schemeLength url ≠ 0) :
    ∃ scheme userinfo host path tail, Parts url scheme userinfo host path tail := by
  obtain ⟨scheme, rest, rfl, scheme_is⟩ := scheme_of_length known
  obtain ⟨before, tail, rfl, before_free, tail_starts⟩ := exists_cut [byte '?', byte '#'] rest
  obtain ⟨authority, path, rfl, authority_free, path_starts⟩ := exists_cut [byte '/'] before
  obtain ⟨userinfo, host, rfl, host_free, userinfo_ends⟩ := exists_last_cut (byte '@') authority
  refine ⟨scheme, userinfo, host, path, tail, ?_, scheme_is, userinfo_ends, ?_, ?_, ?_, ?_,
    tail_starts⟩
  · simp only [List.append_assoc]
  · intro b inside
    have slash := authority_free b (List.mem_append_left _ inside)
    have cut := before_free b (List.mem_append_left _ (List.mem_append_left _ inside))
    simp only [List.mem_cons, List.not_mem_nil, or_false] at slash cut ⊢
    exact not_or.2 ⟨slash, cut⟩
  · intro b inside
    have slash := authority_free b (List.mem_append_right _ inside)
    have cut := before_free b (List.mem_append_left _ (List.mem_append_right _ inside))
    have other : b ≠ byte '@' := by
      rintro rfl
      exact host_free inside
    simp only [List.mem_cons, List.not_mem_nil, or_false] at slash cut ⊢
    exact not_or.2 ⟨other, not_or.2 ⟨slash, cut⟩⟩
  · intro b start
    simpa using path_starts b start
  · intro b inside
    exact before_free b (List.mem_append_right _ inside)

theorem Parts.scheme_free (parts : Parts url scheme userinfo host path tail) :
    ∀ b ∈ scheme, b ∉ [byte '?', byte '#'] := by
  rcases parts.scheme_is with rfl | rfl <;> decide +kernel

theorem Parts.schemeLength_eq (parts : Parts url scheme userinfo host path tail) :
    schemeLength url = scheme.length := by
  rw [parts.text, List.append_assoc, List.append_assoc, List.append_assoc]
  rcases parts.scheme_is with rfl | rfl
  · exact schemeLength_https _
  · exact schemeLength_http _

theorem Parts.scheme_pos (parts : Parts url scheme userinfo host path tail) :
    scheme.length ≠ 0 := by
  rcases parts.scheme_is with rfl | rfl <;> decide

/-- The query and the fragment are cut off. -/
theorem Parts.cut (parts : Parts url scheme userinfo host path tail) :
    url.take ((findFirstOf url [byte '?', byte '#'] 0).getD url.length)
      = scheme ++ userinfo ++ host ++ path := by
  have free (b : UInt8) (inside : b ∈ scheme ++ userinfo ++ host ++ path) :
      b ∉ [byte '?', byte '#'] := by
    rcases List.mem_append.1 inside with inside | inside
    · rcases List.mem_append.1 inside with inside | inside
      · rcases List.mem_append.1 inside with inside | inside
        · exact parts.scheme_free b inside
        · exact fun cut => parts.userinfo_free b inside (List.mem_cons_of_mem _ cut)
      · exact fun cut => parts.host_free b inside (List.mem_cons_of_mem _ (List.mem_cons_of_mem _ cut))
    · exact parts.path_free b inside
  have starts := parts.tail_starts
  rw [parts.text]
  cases tail with
  | nil =>
      rw [List.append_nil, findFirstOf_none free, Option.getD_none, List.take_length]
  | cons b tail =>
      rw [findFirstOf_some free (starts b rfl), Option.getD_some, List.take_left]

/-- The authority ends where the path begins. -/
theorem Parts.stop (parts : Parts url scheme userinfo host path tail) :
    (find (scheme ++ userinfo ++ host ++ path) (byte '/') scheme.length).getD
        (scheme ++ userinfo ++ host ++ path).length
      = scheme.length + (userinfo ++ host).length := by
  have free (b : UInt8) (inside : b ∈ userinfo ++ host) : b ∉ [byte '/'] := by
    intro slash
    rw [List.mem_singleton] at slash
    subst slash
    rcases List.mem_append.1 inside with inside | inside
    · exact parts.userinfo_free _ inside List.mem_cons_self
    · exact parts.host_free _ inside (List.mem_cons_of_mem _ List.mem_cons_self)
  have starts := parts.path_starts
  rw [List.append_assoc scheme, find]
  cases path with
  | nil =>
      rw [List.append_nil, findFirstOf_free free, Option.getD_none, List.length_append]
  | cons b path =>
      rw [findFirstOf_at free (List.mem_singleton.2 (starts b rfl)), Option.getD_some]

/-- The host begins behind the last `@`. -/
theorem Parts.host_start (parts : Parts url scheme userinfo host path tail) :
    (rfind (userinfo ++ host) (byte '@')).elim scheme.length (fun at_ => scheme.length + at_ + 1)
      = scheme.length + userinfo.length := by
  have free : byte '@' ∉ host := fun inside => parts.host_free _ inside List.mem_cons_self
  rcases parts.userinfo_ends with rfl | ⟨start, rfl⟩
  · rw [List.nil_append, rfind_free free]
    rfl
  · rw [List.append_assoc, List.singleton_append, rfind_at free, List.length_append]
    rfl

/-- What is kept of a URL, and when. -/
theorem sanitize_parts (parts : Parts url scheme userinfo host path tail)
    (clean : url.any refusedByte = false) (output : List UInt8) :
    sanitize url output
      = if admitAuthority host = .sanitized then
          (.sanitized, scheme ++ host ++ path ++ output.drop (scheme ++ host ++ path).length,
            (scheme ++ host ++ path).length)
        else (admitAuthority host, output, 0) := by
  have known := parts.schemeLength_eq
  have authority : substr (scheme ++ userinfo ++ host ++ path) scheme.length
      (scheme.length + (userinfo ++ host).length - scheme.length) = userinfo ++ host := by
    rw [substr, Nat.add_sub_cancel_left, List.append_assoc scheme, List.append_assoc scheme,
      List.drop_left, List.take_left]
  have admitted : substr (scheme ++ userinfo ++ host ++ path) (scheme.length + userinfo.length)
      (scheme.length + (userinfo ++ host).length - (scheme.length + userinfo.length)) = host := by
    rw [substr, List.length_append, ← Nat.add_assoc, Nat.add_sub_cancel_left,
      ← List.length_append, List.append_assoc (scheme ++ userinfo), List.drop_left, List.take_left]
  have kept : (scheme ++ userinfo ++ host ++ path).drop (scheme.length + userinfo.length)
      = host ++ path := by
    rw [← List.length_append, List.append_assoc (scheme ++ userinfo), List.drop_left]
  have first : (scheme ++ userinfo ++ host ++ path).take scheme.length = scheme := by
    rw [List.append_assoc scheme, List.append_assoc scheme, List.take_left]
  have size : scheme.length + (scheme ++ userinfo ++ host ++ path).length
      - (scheme.length + userinfo.length) = (scheme ++ host ++ path).length := by
    simp only [List.length_append]
    omega
  rw [schemeLength] at known
  rw [sanitize, if_neg (by rw [clean]; decide)]
  dsimp only
  rw [known, if_neg parts.scheme_pos, parts.cut, parts.stop, authority, parts.host_start, admitted,
    first, kept, size, ite_not, List.append_assoc scheme host path]

end Parts

/-! ## The authorities that are admitted -/

structure IsLabel (label : List UInt8) : Prop where
  nonempty : label ≠ []
  short : label.length ≤ 63
  starts : label.head? ≠ some (byte '-')
  ends : label.getLast? ≠ some (byte '-')
  bytes : ∀ b ∈ label, labelByte b = true

def portValue (digits : List UInt8) : Nat :=
  digits.foldl (fun port digit => port * 10 + (digit.toNat - (byte '0').toNat)) 0

def IsPort (port : List UInt8) : Prop :=
  port = [] ∨ ∃ digits, port = byte ':' :: digits ∧ digits ≠ [] ∧
    (∀ digit ∈ digits, byte '0' ≤ digit ∧ digit ≤ byte '9') ∧ portValue digits ≤ 65535

/-- A name of labels, with or without a last dot, and an optional port. -/
structure Admitted (host : List UInt8) (labels : List (List UInt8)) (dot port : List UInt8) :
    Prop where
  text : host = [byte '.'].intercalate labels ++ dot ++ port
  nonempty : labels ≠ []
  labels_are : ∀ label ∈ labels, IsLabel label
  short : ([byte '.'].intercalate labels).length ≤ 253
  dot_is : dot = [] ∨ dot = [byte '.']
  port_is : IsPort port

theorem labelAdmitted_iff {label : List UInt8} : labelAdmitted label = true ↔ IsLabel label := by
  constructor
  · intro admitted
    simp [labelAdmitted] at admitted
    exact ⟨admitted.1.1.1.1, admitted.1.1.1.2, admitted.1.1.2, admitted.1.2, admitted.2⟩
  · intro label
    simpa [labelAdmitted] using
      ⟨⟨⟨⟨label.nonempty, label.short⟩, label.starts⟩, label.ends⟩, label.bytes⟩

theorem portAdmitted_sound {digits : List UInt8} {port : Nat}
    (admitted : portAdmitted digits port = true) (small : port ≤ 65535) :
    (∀ digit ∈ digits, byte '0' ≤ digit ∧ digit ≤ byte '9') ∧
      digits.foldl (fun port digit => port * 10 + (digit.toNat - (byte '0').toNat)) port ≤ 65535 := by
  induction digits generalizing port with
  | nil => exact ⟨by simp, small⟩
  | cons digit digits ih =>
      rw [portAdmitted] at admitted
      by_cases other : digit < byte '0' ∨ byte '9' < digit
      · rw [if_pos other] at admitted
        cases admitted
      · rw [if_neg other] at admitted
        dsimp only at admitted
        rw [not_or, UInt8.not_lt, UInt8.not_lt] at other
        split at admitted
        · cases admitted
        · next within =>
            obtain ⟨rest, value⟩ := ih admitted (Nat.not_lt.1 within)
            exact ⟨List.forall_mem_cons.2 ⟨other, rest⟩, value⟩

theorem suffixAdmitted_sound {suffix : List UInt8} (admitted : suffixAdmitted suffix = true) :
    IsPort suffix := by
  unfold suffixAdmitted at admitted
  split at admitted
  · next none => exact .inl none
  · split at admitted
    · cases admitted
    · next shape =>
        rw [not_or, not_not] at shape
        cases suffix with
        | nil => cases shape.1
        | cons colon digits =>
            have first : colon = byte ':' := Option.some.inj shape.1
            subst first
            obtain ⟨all, value⟩ := portAdmitted_sound admitted (Nat.zero_le _)
            refine .inr ⟨digits, rfl, ?_, all, value⟩
            rintro rfl
            exact shape.2 rfl

theorem admitLabels_sound {host : List UInt8} (admitted : admitLabels host = .sanitized)
    (nonempty : host ≠ []) :
    ∃ labels, host = [byte '.'].intercalate labels ∧ labels ≠ [] ∧
      ∀ label ∈ labels, IsLabel label := by
  induction host using admitLabels.induct with
  | case1 => exact absurd rfl nonempty
  | case2 first rest none label =>
      exact ⟨[first :: rest], by simp, by simp, by simpa using labelAdmitted_iff.1 label⟩
  | case3 first rest none label =>
      rw [admitLabels, none] at admitted
      dsimp only at admitted
      rw [if_neg label] at admitted
      cases admitted
  | case4 first rest dot found label =>
      rw [admitLabels, found] at admitted
      dsimp only at admitted
      rw [if_pos label] at admitted
      cases admitted
  | case5 first rest dot found label after =>
      rw [admitLabels, found] at admitted
      dsimp only at admitted
      rw [if_neg label, if_pos after] at admitted
      cases admitted
  | case6 first rest dot found label after ih =>
      rw [admitLabels, found] at admitted
      dsimp only at admitted
      rw [if_neg label, if_neg after] at admitted
      obtain ⟨labels, text, some, all⟩ := ih admitted after
      rcases find_cases (first :: rest) (byte '.') with ⟨missing, _⟩ | ⟨before, more, host, _, place⟩
      · rw [missing] at found
        cases found
      · have same : before.length = dot := Option.some.inj (place.symm.trans found)
        subst same
        have behind : rest.drop before.length = more := by
          rw [← List.drop_succ_cons (a := first), host, ← List.singleton_append,
            ← List.append_assoc, List.drop_left' (by simp)]
        have front : substr (first :: rest) 0 before.length = before := by
          rw [substr, List.drop_zero, host, List.take_left]
        rw [front, Bool.not_eq_true', Bool.not_eq_false, labelAdmitted_iff] at label
        rw [behind] at text
        refine ⟨before :: labels, ?_, by simp, List.forall_mem_cons.2 ⟨label, all⟩⟩
        rw [host, text, List.intercalate_cons_of_ne_nil some, List.append_assoc]
        rfl

theorem admitHost_sound {host : List UInt8} (admitted : admitHost host = .sanitized) :
    ∃ labels dot, host = [byte '.'].intercalate labels ++ dot ∧ labels ≠ [] ∧
      (∀ label ∈ labels, IsLabel label) ∧ ([byte '.'].intercalate labels).length ≤ 253 ∧
      (dot = [] ∨ dot = [byte '.']) := by
  obtain ⟨name, dot, text, name_is, dot_is⟩ : ∃ name dot, host = name ++ dot ∧
      name = (if host.getLast? = some (byte '.') then host.dropLast else host) ∧
      (dot = [] ∨ dot = [byte '.']) := by
    by_cases last : host.getLast? = some (byte '.')
    · refine ⟨host.dropLast, [byte '.'], ?_, (if_pos last).symm, .inr rfl⟩
      exact (List.dropLast_append_getLast? _ last).symm
    · exact ⟨host, [], (List.append_nil _).symm, (if_neg last).symm, .inl rfl⟩
  rw [admitHost, ← name_is] at admitted
  split at admitted
  · cases admitted
  · next within =>
      rw [not_or, Nat.not_lt] at within
      obtain ⟨labels, rfl, some, all⟩ := admitLabels_sound admitted within.1
      exact ⟨labels, dot, text, some, all, within.2, dot_is⟩

theorem admitAuthority_sound {authority : List UInt8}
    (admitted : admitAuthority authority = .sanitized) :
    ∃ labels dot port, Admitted authority labels dot port := by
  unfold admitAuthority at admitted
  split at admitted
  · split at admitted
    · cases admitted
    · split at admitted
      · cases admitted
      · split at admitted <;> cases admitted
  · split at admitted
    · cases admitted
    · dsimp only at admitted
      split at admitted
      · cases admitted
      · split at admitted
        · cases admitted
        · next port =>
            rw [Bool.not_eq_true', Bool.not_eq_false] at port
            obtain ⟨labels, dot, text, some, all, short, dot_is⟩ := admitHost_sound admitted
            refine ⟨labels, dot, _, ?_, some, all, short, dot_is, suffixAdmitted_sound port⟩
            rw [← text, List.take_append_drop]

/-! ## What is kept is a text -/

theorem labelByte_ascii {b : UInt8} (label : labelByte b = true) : b < 0x80 := by
  have range := label
  simp only [labelByte, Bool.or_eq_true, Bool.and_eq_true, decide_eq_true_eq, beq_iff_eq,
    UInt8.le_iff_toNat_le] at range
  rw [UInt8.lt_iff_toNat_lt]
  have a : (byte 'z').toNat = 122 := by decide
  have b' : (byte 'Z').toNat = 90 := by decide
  have d : (byte '9').toNat = 57 := by decide
  have e : (0x80 : UInt8).toNat = 128 := by decide
  rcases range with ((low | upper) | digit) | dash
  · omega
  · omega
  · omega
  · rw [dash]
    decide

/-- An admitted host begins with an ASCII byte. -/
theorem Admitted.head {host dot port : List UInt8} {labels : List (List UInt8)}
    (admitted : Admitted host labels dot port) : ∃ b rest, host = b :: rest ∧ b < 0x80 := by
  obtain ⟨label, labels, rfl⟩ := List.exists_cons_of_ne_nil admitted.nonempty
  have first := admitted.labels_are label List.mem_cons_self
  obtain ⟨b, more, rfl⟩ := List.exists_cons_of_ne_nil first.nonempty
  refine ⟨b, ?_⟩
  rw [admitted.text]
  cases labels with
  | nil =>
      rw [List.intercalate_singleton]
      exact ⟨_, rfl, labelByte_ascii (first.bytes b List.mem_cons_self)⟩
  | cons next labels =>
      rw [List.intercalate_cons_cons]
      exact ⟨_, rfl, labelByte_ascii (first.bytes b List.mem_cons_self)⟩

/-! ## What `SanitizeUrl` keeps -/

/-- The array that a URL is encoded into. -/
def urlArray : List UInt8 := List.replicate kNativeWorkerSourceMaxUrlBytes 0

theorem encode_url {units : CodeUnits} {cs : List Char} (spells : Spells units cs)
    (fits : (utf8 cs).length ≤ kNativeWorkerSourceMaxUrlBytes) :
    encode units.text urlArray kNativeWorkerSourceMaxUrlBytes
      = (.accepted, utf8 cs ++ urlArray.drop (utf8 cs).length, (utf8 cs).length) :=
  encode_written spells fits (by rw [urlArray, List.length_replicate]; exact fits)

theorem sanitizeUrl_spelled {units : CodeUnits} {cs : List Char} (spells : Spells units cs)
    (fits : (utf8 cs).length ≤ kNativeWorkerSourceMaxUrlBytes) (some : utf8 cs ≠ [])
    (output : List UInt8) : sanitizeUrl units.text output = sanitize (utf8 cs) output := by
  rw [sanitizeUrl, ← urlArray, encode_url spells fits]
  dsimp only
  rw [if_neg (by simpa using some), List.take_left]

theorem text_of_accepted {text : NativeWorkerText} {output : List UInt8} {limit : Nat}
    (accepted : (encode text output limit).1 = .accepted) : ∃ units : CodeUnits, text = units.text := by
  obtain ⟨latin1, utf16, unavailable⟩ := text
  unfold encode at accepted
  split at accepted
  · cases accepted
  · next available =>
      rw [Bool.not_eq_true] at available
      dsimp only at available
      subst available
      split at accepted
      · cases accepted
      · next single =>
          rw [not_and_or, not_not, not_not] at single
          dsimp only at single
          rcases single with rfl | rfl
          · exact ⟨.inr utf16, rfl⟩
          · exact ⟨.inl latin1, rfl⟩

/-- A text that is sanitized spells an http URL. -/
theorem sanitized_spells {text : NativeWorkerText} {output : List UInt8}
    (sanitized : (sanitizeUrl text output).1 = .sanitized) :
    ∃ units cs, text = CodeUnits.text units ∧ Spells units cs ∧
      (utf8 cs).length ≤ kNativeWorkerSourceMaxUrlBytes ∧
      sanitizeUrl text output = sanitize (utf8 cs) output := by
  rw [sanitizeUrl, ← urlArray] at sanitized
  split at sanitized
  · next encoded size done =>
      have accepted : (encode text urlArray kNativeWorkerSourceMaxUrlBytes).1 = .accepted := by
        rw [done]
      obtain ⟨units, rfl⟩ := text_of_accepted accepted
      obtain ⟨cs, spells, fits, space⟩ := encode_accepted accepted
      refine ⟨units, cs, rfl, spells, fits, sanitizeUrl_spelled spells fits ?_ output⟩
      intro none
      rw [encode_url spells fits, none] at done
      obtain ⟨_, rfl⟩ := Prod.mk.inj (Prod.mk.inj done).2
      cases sanitized
  · cases sanitized

/-- Only clean http URLs whose host is admitted are sanitized. -/
theorem sanitize_sanitized {url output : List UInt8}
    (sanitized : (sanitize url output).1 = .sanitized) :
    ∃ scheme userinfo host path tail, Parts url scheme userinfo host path tail ∧
      url.any refusedByte = false ∧ admitAuthority host = .sanitized := by
  by_cases dirty : url.any refusedByte = true
  · rw [sanitize, if_pos dirty] at sanitized
    cases sanitized
  · rw [Bool.not_eq_true] at dirty
    by_cases known : schemeLength url = 0
    · rw [schemeLength] at known
      rw [sanitize, if_neg (by rw [dirty]; decide)] at sanitized
      dsimp only at sanitized
      rw [if_pos known] at sanitized
      cases sanitized
    · obtain ⟨scheme, userinfo, host, path, tail, parts⟩ := exists_parts known
      rw [sanitize_parts parts dirty] at sanitized
      by_cases admitted : admitAuthority host = .sanitized
      · exact ⟨scheme, userinfo, host, path, tail, parts, dirty, admitted⟩
      · rw [if_neg admitted] at sanitized
        exact absurd sanitized admitted

section Kept

variable {url scheme userinfo host path tail : List UInt8}

/-- What is kept has the same host and path, and nothing to cut. -/
theorem Parts.kept (parts : Parts url scheme userinfo host path tail) :
    Parts (scheme ++ host ++ path) scheme [] host path [] :=
  { parts with
    text := by simp
    userinfo_ends := .inl rfl
    userinfo_free := by simp
    tail_starts := by simp }

theorem Parts.kept_clean (parts : Parts url scheme userinfo host path tail)
    (clean : url.any refusedByte = false) : (scheme ++ host ++ path).any refusedByte = false := by
  rw [parts.text] at clean
  simp only [List.any_append, Bool.or_eq_false_iff] at clean ⊢
  exact ⟨⟨clean.1.1.1.1, clean.1.1.2⟩, clean.1.2⟩

theorem Parts.kept_length (parts : Parts url scheme userinfo host path tail) :
    (scheme ++ host ++ path).length ≤ url.length := by
  rw [parts.text]
  simp only [List.length_append]
  omega

theorem Parts.kept_some (parts : Parts url scheme userinfo host path tail) :
    scheme ++ host ++ path ≠ [] := by
  intro none
  rw [List.append_eq_nil_iff, List.append_eq_nil_iff] at none
  exact parts.scheme_pos (by rw [none.1.1]; rfl)

/-- What is kept of a text is a text. -/
theorem Parts.kept_spelled {cs : List Char} {labels : List (List UInt8)} {dot port : List UInt8}
    (parts : Parts (utf8 cs) scheme userinfo host path tail)
    (admitted : Admitted host labels dot port) : ∃ ds, utf8 ds = scheme ++ host ++ path := by
  have text := parts.text
  rw [List.append_assoc, List.append_assoc (scheme ++ userinfo)] at text
  obtain ⟨b, rest, host_is, ascii⟩ := admitted.head
  obtain ⟨_, back, _, _, back_is⟩ := utf8_cut text (by
    intro x first
    rw [host_is] at first
    have same : b = x := Option.some.inj first
    exact same ▸ isContinuation_ascii ascii)
  rw [← List.append_assoc] at back_is
  obtain ⟨front, _, _, front_is, _⟩ := utf8_cut back_is (by
    intro x first
    have mark := parts.tail_starts x first
    have marks : ∀ y ∈ [byte '?', byte '#'], y < 0x80 := by decide +kernel
    exact isContinuation_ascii (marks x mark))
  obtain ⟨start, start_is⟩ : ∃ start, utf8 start = scheme := by
    rcases parts.scheme_is with rfl | rfl
    · exact ⟨"https://".toList, by decide +kernel⟩
    · exact ⟨"http://".toList, by decide +kernel⟩
  exact ⟨start ++ front, by rw [utf8_append, start_is, front_is, List.append_assoc]⟩

end Kept

/-! ## URLs with and without secrets -/

structure UrlText where
  scheme : List UInt8
  userinfo : Option (List UInt8)
  host : List UInt8
  port : Option (List UInt8)
  path : List UInt8
  query : Option (List UInt8)
  fragment : Option (List UInt8)

namespace UrlText

variable (url : UrlText)

def marked (mark : Char) (part : Option (List UInt8)) : List UInt8 :=
  part.elim [] fun text => byte mark :: text

def credentials : List UInt8 := url.userinfo.elim [] fun text => text ++ [byte '@']

def authority : List UInt8 := url.host ++ marked ':' url.port

def tail : List UInt8 := marked '?' url.query ++ marked '#' url.fragment

def bytes : List UInt8 := url.scheme ++ url.credentials ++ url.authority ++ url.path ++ url.tail

/-- The delimiters stand where they delimit. -/
structure WellFormed : Prop where
  scheme_is : url.scheme = httpsScheme ∨ url.scheme = httpScheme
  userinfo_free : ∀ text ∈ url.userinfo, ∀ b ∈ text, b ∉ [byte '/', byte '?', byte '#']
  authority_free : ∀ b ∈ url.authority, b ∉ [byte '@', byte '/', byte '?', byte '#']
  path_starts : ∀ b ∈ url.path.head?, b = byte '/'
  path_free : ∀ b ∈ url.path, b ∉ [byte '?', byte '#']
  query_free : ∀ text ∈ url.query, byte '#' ∉ text

/-- Small enough, and free of blanks, controls and backslashes. -/
def Clean : Prop :=
  url.bytes.length ≤ kNativeWorkerSourceMaxUrlBytes ∧ ∀ b ∈ url.bytes, refusedByte b = false

variable {url}

theorem WellFormed.parts (well : url.WellFormed) :
    Parts url.bytes url.scheme url.credentials url.authority url.path url.tail where
  text := rfl
  scheme_is := well.scheme_is
  userinfo_ends := by
    unfold credentials
    cases url.userinfo with
    | none => exact .inl rfl
    | some text => exact .inr ⟨text, rfl⟩
  userinfo_free := by
    have free := well.userinfo_free
    unfold credentials
    cases given : url.userinfo with
    | none => simp
    | some text =>
        intro b inside
        rcases List.mem_append.1 inside with inside | last
        · exact free text given b inside
        · rw [List.mem_singleton] at last
          subst last
          decide
  host_free := well.authority_free
  path_starts := well.path_starts
  path_free := well.path_free
  tail_starts := by
    unfold tail marked
    cases url.query with
    | some text => simp
    | none =>
        cases url.fragment with
        | some text => simp
        | none => simp

end UrlText

/-- User, query and fragment have no effect.  What is kept of a URL is its scheme, its host
with the port and its path, that is the text before the first `?` or `#` without what stands
before the last `@` of the authority, and that is kept again. -/
theorem sanitizeUrl_exact :
    (∀ first second : UrlText, first.WellFormed → second.WellFormed → first.Clean → second.Clean →
      first.scheme = second.scheme → first.host = second.host → first.port = second.port →
      first.path = second.path →
      ∀ (units others : CodeUnits) (cs ds : List Char), Spells units cs → Spells others ds →
        utf8 cs = first.bytes → utf8 ds = second.bytes →
        ∀ output, sanitizeUrl units.text output = sanitizeUrl others.text output) ∧
    (∀ (text : NativeWorkerText) (output written : List UInt8) (size : Nat),
      sanitizeUrl text output = (.sanitized, written, size) →
      ∃ (units : CodeUnits) (cs : List Char) (scheme userinfo host path tail : List UInt8),
        text = units.text ∧ Spells units cs ∧
        Parts (utf8 cs) scheme userinfo host path tail ∧
        (∃ labels dot port, Admitted host labels dot port) ∧
        size = (scheme ++ host ++ path).length ∧ size ≤ kNativeWorkerSourceMaxUrlBytes ∧
        written = scheme ++ host ++ path ++ output.drop size ∧
        (∃ (again : CodeUnits) (ds : List Char), Spells again ds ∧
          utf8 ds = scheme ++ host ++ path) ∧
        ∀ (again : CodeUnits) (ds : List Char), Spells again ds →
          utf8 ds = scheme ++ host ++ path → ∀ output : List UInt8,
          sanitizeUrl again.text output
            = (.sanitized, scheme ++ host ++ path ++ output.drop size, size)) := by
  constructor
  · intro first second well other clean spotless scheme host port path units others cs ds spells
      spelled text same output
    have authority : first.authority = second.authority := by
      rw [UrlText.authority, UrlText.authority, host, port]
    have kept {url : UrlText} (well : url.WellFormed) : url.bytes ≠ [] := by
      intro none
      have length := well.parts.kept_length
      rw [none, List.length_nil] at length
      exact well.parts.kept_some (List.length_eq_zero_iff.1 (Nat.le_zero.1 length))
    rw [sanitizeUrl_spelled spells (text ▸ clean.1) (text ▸ kept well),
      sanitizeUrl_spelled spelled (same ▸ spotless.1) (same ▸ kept other), text, same,
      sanitize_parts well.parts (by simpa using clean.2),
      sanitize_parts other.parts (by simpa using spotless.2), scheme, authority, path]
  · intro text output written size done
    have sanitized : (sanitizeUrl text output).1 = .sanitized := by rw [done]
    obtain ⟨units, cs, rfl, spells, fits, same⟩ := sanitized_spells sanitized
    rw [same] at sanitized
    obtain ⟨scheme, userinfo, host, path, tail, parts, clean, admits⟩ :=
      sanitize_sanitized sanitized
    obtain ⟨labels, dot, port, admitted⟩ := admitAuthority_sound admits
    rw [same, sanitize_parts parts clean, if_pos admits] at done
    obtain ⟨rfl, rfl⟩ := Prod.mk.inj (Prod.mk.inj done).2
    obtain ⟨kept, kept_is⟩ := parts.kept_spelled admitted
    refine ⟨units, cs, scheme, userinfo, host, path, tail, rfl, spells, parts,
      ⟨labels, dot, port, admitted⟩, rfl, parts.kept_length.trans fits, rfl,
      ⟨.inr (Theory.Utf16.encode kept), kept, rfl, kept_is⟩, ?_⟩
    intro again ds spelled text output
    rw [sanitizeUrl_spelled spelled (text ▸ parts.kept_length.trans fits) (text ▸ parts.kept_some),
      text, sanitize_parts parts.kept (parts.kept_clean clean), if_pos admits]

end Reb.Worker.Source
