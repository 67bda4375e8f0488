import Mathlib.Data.List.Basic
import Spreadsheet.Json
import Spreadsheet.Proofs.Names

namespace Spreadsheet.Json

namespace Quoted

theorem hexValue?_digitChar : ∀ {n : Nat}, n < 16 → Text.hexValue? (Nat.digitChar n) = some n := by
  decide

theorem unit?_encodeControl {c : Char} (h : isControl c = true) :
    unit? '0' '0' (Nat.digitChar (c.toNat / 16)) (Nat.digitChar (c.toNat % 16)) =
      some c.toNat := by
  have hcode : c.toNat < 32 := of_decide_eq_true h
  have hzero : Text.hexValue? '0' = some 0 := rfl
  have hhigh : Text.hexValue? (Nat.digitChar (c.toNat / 16)) = some (c.toNat / 16) :=
    hexValue?_digitChar (by omega)
  have hlow : Text.hexValue? (Nat.digitChar (c.toNat % 16)) = some (c.toNat % 16) :=
    hexValue?_digitChar (by omega)
  unfold unit?
  simp only [hzero, hhigh, hlow, Option.bind_eq_bind, Option.bind_some, Option.pure_def,
    Option.some.injEq]
  omega

theorem join?_unit {value : Nat} (h : value < 0xD800) (rest : List Piece) :
    join? (.unit value :: rest) = (join? rest).map (Char.ofNat value :: ·) := by
  have hhigh : isHigh value = false := by simp [isHigh]; omega
  have hlow : isLow value = false := by simp [isLow]; omega
  cases rest with
  | nil => simp [join?, hhigh, hlow]
  | cons piece rest => cases piece <;> simp [join?, hhigh, hlow]

theorem pieces?_escaped {c meant : Char} (h : escaped? c = some meant) (rest : List Char) :
    pieces? ('\\' :: c :: rest) = (pieces? rest).map (.char meant :: ·) := by
  have hunit : c ≠ 'u' := by
    rintro rfl
    simp [escaped?] at h
  rw [pieces?]
  · simp only [h, Option.bind_eq_bind, Option.bind_some, Option.pure_def]
    cases pieces? rest <;> rfl
  · rintro a b c' d rest' rfl
    exact absurd rfl hunit

theorem pieces?_plain {c : Char} (hquote : c ≠ '"') (hslash : c ≠ '\\')
    (hcontrol : isControl c = false) (rest : List Char) :
    pieces? (c :: rest) = (pieces? rest).map (.char c :: ·) := by
  rw [pieces?]
  · simp [hquote, hslash, hcontrol]
  · rintro a b c' d rest' rfl
    exact absurd rfl hslash
  · rintro c' rest' rfl
    exact absurd rfl hslash

theorem exists_piece (c : Char) : ∃ piece : Piece,
    (∀ rest, pieces? (encodeChar c ++ rest) = (pieces? rest).map (piece :: ·)) ∧
      ∀ rest, join? (piece :: rest) = (join? rest).map (c :: ·) := by
  have hchar : ∀ rest, join? (.char c :: rest) = (join? rest).map (c :: ·) := fun rest => by
    rw [join?]
  unfold encodeChar
  split
  case h_8 hquote hslash _ _ _ _ _ =>
    split
    · rename_i hcontrol
      refine ⟨.unit c.toNat, fun rest => ?_, fun rest => ?_⟩
      · simp only [encodeControl, List.cons_append, List.nil_append, pieces?,
          unit?_encodeControl hcontrol, Option.bind_eq_bind, Option.bind_some, Option.pure_def]
        cases pieces? rest <;> rfl
      · have hcode : c.toNat < 32 := of_decide_eq_true hcontrol
        rw [join?_unit (by omega), Char.ofNat_toNat]
    · rename_i hcontrol
      exact ⟨.char c, pieces?_plain hquote hslash (by simpa using hcontrol), hchar⟩
  all_goals exact ⟨.char _, pieces?_escaped rfl, hchar⟩

theorem exists_pieces (text : List Char) :
    ∃ pieces, pieces? (encode text) = some pieces ∧ join? pieces = some text := by
  induction text with
  | nil => exact ⟨[], rfl, rfl⟩
  | cons c text ih =>
      obtain ⟨pieces, hpieces, hjoin⟩ := ih
      obtain ⟨piece, hpiece, hmeant⟩ := exists_piece c
      refine ⟨piece :: pieces, ?_, ?_⟩
      · rw [encode, List.flatMap_cons, hpiece, ← encode, hpieces, Option.map_some]
      · rw [hmeant, hjoin, Option.map_some]

theorem decode?_encode (text : List Char) : decode? (encode text) = some text := by
  obtain ⟨pieces, hpieces, hjoin⟩ := exists_pieces text
  rw [decode?, hpieces, Option.bind_some, hjoin]

theorem encode_of_isDigit {text : List Char} (h : ∀ c ∈ text, c.isDigit = true) :
    encode text = text := by
  have hchar : ∀ c : Char, c.isDigit = true → encodeChar c = [c] := by
    intro c hc
    rw [Text.isDigit_iff] at hc
    have hcontrol : isControl c = false := by
      simp [isControl]
      omega
    unfold encodeChar
    split
    case h_8 => rw [hcontrol, if_neg Bool.false_ne_true]
    all_goals simp at hc
  induction text with
  | nil => rfl
  | cons c text ih =>
      obtain ⟨hc, htext⟩ := List.forall_mem_cons.mp h
      rw [encode, List.flatMap_cons, hchar c hc, ← encode, ih htext, List.singleton_append]

theorem isQuoted_encode (text : List Char) : isQuoted (encode text) = true := by
  obtain ⟨pieces, hpieces, -⟩ := exists_pieces text
  rw [isQuoted, hpieces, Option.isSome_some]

end Quoted

namespace Number

variable {text : List Char}

theorem isWordChar_of_isDigit {c : Char} (h : c.isDigit = true) : Token.isWordChar c = true := by
  simp [Token.isWordChar, Char.isAlphanum, h]

theorem isWordChar_of_power? {rest : List Char} {power : Int}
    (h : Numeral.power? rest = some power) : ∀ c ∈ rest, Token.isWordChar c = true := by
  have hdigits : ∀ {digits : List Char}, digits.all Char.isDigit = true →
      ∀ c ∈ digits, Token.isWordChar c = true := fun hall c hc =>
    isWordChar_of_isDigit (List.all_eq_true.mp hall c hc)
  cases rest with
  | nil => simp
  | cons mark rest =>
      rw [Numeral.power?] at h
      split at h
      · rename_i hmark
        have hfirst : Token.isWordChar mark = true := by
          rcases Bool.or_eq_true _ _ ▸ hmark with hmark | hmark <;>
            (rw [beq_iff_eq.mp hmark]; rfl)
        unfold Numeral.exponent? at h
        dsimp only at h
        split at h
        · rename_i hall
          have hall := hdigits (Bool.and_eq_true _ _ ▸ hall).2
          refine List.forall_mem_cons.mpr ⟨hfirst, ?_⟩
          unfold Numeral.splitSign at hall
          split at hall
          · exact List.forall_mem_cons.mpr ⟨rfl, hall⟩
          · exact List.forall_mem_cons.mpr ⟨rfl, hall⟩
          · exact hall
        · cases h
      · cases h

theorem isWordChar_of_splitFraction {behind fraction rest : List Char} {power : Int}
    (hsplit : Numeral.splitFraction behind = (fraction, rest))
    (hpower : Numeral.power? rest = some power) : ∀ c ∈ behind, Token.isWordChar c = true := by
  have hrest := isWordChar_of_power? hpower
  unfold Numeral.splitFraction at hsplit
  split at hsplit
  · rename_i digits
    obtain ⟨rfl, rfl⟩ := Prod.mk.inj hsplit
    rw [← List.takeWhile_append_dropWhile (p := Char.isDigit) (l := digits)]
    exact List.forall_mem_cons.mpr ⟨rfl, List.forall_mem_append.mpr
      ⟨fun c hc => isWordChar_of_isDigit (List.mem_takeWhile_imp hc), hrest⟩⟩
  · obtain ⟨-, rfl⟩ := Prod.mk.inj hsplit
    exact hrest

theorem isWordChar_of_ofChars? {n : Number} (h : ofChars? text = some n) :
    text ≠ [] ∧ ∀ c ∈ text, Token.isWordChar c = true := by
  unfold ofChars? at h
  rcases hsign : splitMinus text with ⟨negative, body⟩
  rcases hfraction : Numeral.splitFraction (body.dropWhile Char.isDigit) with ⟨fraction, rest⟩
  rw [hsign] at h
  dsimp only at h
  rw [hfraction] at h
  dsimp only at h
  split at h
  · rename_i hwell
    obtain ⟨power, hpower, -⟩ := Option.map_eq_some_iff.mp h
    have hwhole := (Bool.and_eq_true _ _ ▸ hwell).1
    have hbody : ∀ c ∈ body, Token.isWordChar c = true := by
      rw [← List.takeWhile_append_dropWhile (p := Char.isDigit) (l := body)]
      exact List.forall_mem_append.mpr
        ⟨fun c hc => isWordChar_of_isDigit (List.mem_takeWhile_imp hc),
          isWordChar_of_splitFraction hfraction hpower⟩
    have hne : body ≠ [] := by
      rintro rfl
      simp [isWhole] at hwhole
    unfold splitMinus at hsign
    split at hsign
    · obtain ⟨-, rfl⟩ := Prod.mk.inj hsign
      exact ⟨List.cons_ne_nil _ _, List.forall_mem_cons.mpr ⟨rfl, hbody⟩⟩
    · obtain ⟨-, rfl⟩ := Prod.mk.inj hsign
      exact ⟨hne, hbody⟩
  · cases h

theorem head?_toDigits {n : Nat} (h : 0 < n) : (Nat.toDigits 10 n).head? ≠ some '0' := by
  induction n using Nat.strongRecOn with
  | ind n ih =>
      by_cases hlt : n < 10
      · rw [Nat.toDigits_of_lt_base hlt, List.head?_cons]
        simp
        omega
      · rw [Nat.toDigits_of_base_le (by decide) (by omega),
          List.head?_append_of_ne_nil _ Nat.toDigits_ne_nil]
        exact ih (n / 10) (by omega) (by omega)

theorem isWhole_of_head? (hne : text ≠ []) (hhead : text.head? ≠ some '0') :
    isWhole text = true := by
  unfold isWhole
  split
  · exact absurd rfl hne
  · rfl
  · simpa using hhead

theorem isWhole_toDigits (n : Nat) : isWhole (Nat.toDigits 10 n) = true := by
  rcases Nat.eq_zero_or_pos n with rfl | hpos
  · rfl
  · exact isWhole_of_head? Nat.toDigits_ne_nil (head?_toDigits hpos)

theorem ofChars?_toDigits (n : Nat) :
    ofChars? (Nat.toDigits 10 n) = some ⟨false, Nat.toDigits 10 n, [], 0, true⟩ := by
  have hall : ∀ c ∈ Nat.toDigits 10 n, c.isDigit = true := fun c hc =>
    Position.isDigit_of_mem_toDigits hc
  have hsign : splitMinus (Nat.toDigits 10 n) = (false, Nat.toDigits 10 n) := by
    unfold splitMinus
    split
    · rename_i hdigits
      have hminus := hall '-' (by simp [hdigits])
      simp at hminus
    · rfl
  have htake : (Nat.toDigits 10 n).takeWhile Char.isDigit = Nat.toDigits 10 n :=
    List.takeWhile_eq_self_iff.mpr hall
  have hdrop : (Nat.toDigits 10 n).dropWhile Char.isDigit = [] :=
    List.dropWhile_eq_nil_iff.mpr hall
  simp [ofChars?, hsign, htake, hdrop, isWhole_toDigits, Numeral.splitFraction, Numeral.power?]

theorem toNat?_toDigits {n : Nat} (h : n < limit) :
    (ofChars? (Nat.toDigits 10 n)).bind toNat? = some n := by
  simp [ofChars?_toDigits, toNat?, Numeral.ofDigits, h]

end Number

namespace Token

variable {tokens : List Token} {rest word : List Char} {c : Char} {token : Token}

/-- The tokens of a text behind others, of which the latest comes first. -/
def readFrom (tokens : List Token) (cs : List Char) : Option (List Token) :=
  (cs.foldlM scanChar ⟨tokens, .idle⟩).bind Scan.finish?

/-- No word goes on into these characters. -/
def EndsWord (rest : List Char) : Prop := ∀ c ∈ rest.head?, isWordChar c = false

theorem endsWord_cons (h : isWordChar c = false) : EndsWord (c :: rest) := fun _ hc =>
  Option.some.inj hc ▸ h

theorem readFrom_nil : readFrom tokens [] = some tokens.reverse := rfl

theorem readFrom_cons : readFrom tokens (c :: rest) =
    ((start tokens c).bind fun scan => rest.foldlM scanChar scan).bind Scan.finish? := rfl

theorem readFrom_space (h : isSpace c = true) :
    readFrom tokens (c :: rest) = readFrom tokens rest := by
  rw [readFrom_cons, start, if_pos h, Option.bind_some, readFrom]

theorem readFrom_mark (h : mark? c = some token) :
    readFrom tokens (c :: rest) = readFrom (token :: tokens) rest := by
  have hstart : start tokens c = some ⟨token :: tokens, .idle⟩ := by
    unfold mark? at h
    split at h <;> cases h <;> rfl
  rw [readFrom_cons, hstart, Option.bind_some, readFrom]

theorem readFrom_newLine (depth : Nat) :
    readFrom tokens (newLine depth ++ rest) = readFrom tokens rest := by
  have hblanks : ∀ count : Nat,
      readFrom tokens (List.replicate count ' ' ++ rest) = readFrom tokens rest := by
    intro count
    induction count with
    | zero => rfl
    | succ count ih =>
        rw [List.replicate_succ, List.cons_append, readFrom_space rfl, ih]
  rw [newLine, List.cons_append, readFrom_space rfl, hblanks]

theorem start_of_isWordChar (h : isWordChar c = true) :
    start tokens c = some ⟨tokens, .word [c]⟩ := by
  have hspace : isSpace c = false := by
    rw [← Bool.not_eq_true]
    intro hspace
    simp only [isSpace, Bool.or_eq_true, beq_iff_eq] at hspace
    rcases hspace with ((rfl | rfl) | rfl) | rfl <;> simp [isWordChar] at h
  have hquote : c ≠ '"' := by
    rintro rfl
    simp [isWordChar] at h
  rw [start, hspace, if_neg Bool.false_ne_true, if_neg hquote, if_pos h]

theorem foldlM_word (hword : ∀ c ∈ word, isWordChar c = true) (before : List Char) :
    (word ++ rest).foldlM scanChar ⟨tokens, .word before⟩ =
      rest.foldlM scanChar ⟨tokens, .word (word.reverse ++ before)⟩ := by
  induction word generalizing before with
  | nil => rfl
  | cons c word ih =>
      obtain ⟨hc, hword⟩ := List.forall_mem_cons.mp hword
      have hstep : scanChar ⟨tokens, .word before⟩ c = some ⟨tokens, .word (c :: before)⟩ :=
        if_pos hc
      rw [List.cons_append, List.foldlM_cons, hstep, Option.bind_eq_bind, Option.bind_some,
        ih hword, List.reverse_cons, List.append_assoc, List.singleton_append]

theorem finish_word (hrest : EndsWord rest) {chars : List Char}
    (htoken : ofWord? chars.reverse = some token) :
    (rest.foldlM scanChar ⟨tokens, .word chars⟩).bind Scan.finish? =
      readFrom (token :: tokens) rest := by
  cases rest with
  | nil => simp [readFrom, Scan.finish?, htoken]
  | cons c rest =>
      have hc : isWordChar c = false := hrest c rfl
      rw [List.foldlM_cons, scanChar]
      simp only [hc, htoken, Bool.false_eq_true, if_false, Option.bind_some]
      rfl

theorem readFrom_word (hne : word ≠ []) (hword : ∀ c ∈ word, isWordChar c = true)
    (htoken : ofWord? word = some token) (hrest : EndsWord rest) :
    readFrom tokens (word ++ rest) = readFrom (token :: tokens) rest := by
  cases word with
  | nil => exact absurd rfl hne
  | cons c word =>
      obtain ⟨hc, hword⟩ := List.forall_mem_cons.mp hword
      rw [List.cons_append, readFrom_cons, start_of_isWordChar hc, Option.bind_some,
        foldlM_word hword, finish_word hrest]
      rw [List.reverse_append, List.reverse_reverse]
      exact htoken

theorem ofWord?_number {n : Number} (h : Number.ofChars? word = some n) :
    ofWord? word = some (.number word) := by
  have hword : ∀ literal : List Char, Number.ofChars? literal = none → word ≠ literal := by
    rintro _ hnone rfl
    rw [hnone] at h
    cases h
  unfold ofWord?
  rw [if_neg (hword _ rfl), if_neg (hword _ rfl), if_neg (hword _ rfl), h, Option.map_some]

theorem scanChar_plain (hquote : c ≠ '"') (hslash : c ≠ '\\') {chars : List Char} :
    scanChar ⟨tokens, .quoted chars⟩ c = some ⟨tokens, .quoted (c :: chars)⟩ := by
  rw [scanChar]
  simp only [if_neg hquote, if_neg hslash]

theorem foldlM_encodeChar (c : Char) (before : List Char) :
    (Quoted.encodeChar c ++ rest).foldlM scanChar ⟨tokens, .quoted before⟩ =
      rest.foldlM scanChar ⟨tokens, .quoted ((Quoted.encodeChar c).reverse ++ before)⟩ := by
  unfold Quoted.encodeChar
  split
  case h_8 hquote hslash _ _ _ _ _ =>
    split
    · have hdigit : ∀ (n : Nat) (chars : List Char),
          scanChar ⟨tokens, .quoted chars⟩ (Nat.digitChar n) =
            some ⟨tokens, .quoted (Nat.digitChar n :: chars)⟩ := fun n chars =>
        scanChar_plain (Nat.digitChar_ne _ (by decide)) (Nat.digitChar_ne _ (by decide))
      have hescape : ∀ cs : List Char,
          ('\\' :: 'u' :: '0' :: '0' :: cs).foldlM scanChar ⟨tokens, .quoted before⟩ =
            cs.foldlM scanChar ⟨tokens, .quoted ('0' :: '0' :: 'u' :: '\\' :: before)⟩ :=
        fun _ => rfl
      simp only [Quoted.encodeControl, List.cons_append, List.nil_append]
      rw [hescape, List.foldlM_cons, hdigit, Option.bind_eq_bind, Option.bind_some,
        List.foldlM_cons, hdigit, Option.bind_eq_bind, Option.bind_some]
      rfl
    · exact congrArg (·.bind fun scan => rest.foldlM scanChar scan) (scanChar_plain hquote hslash)
  all_goals rfl

theorem foldlM_encode (text before : List Char) :
    (Quoted.encode text ++ rest).foldlM scanChar ⟨tokens, .quoted before⟩ =
      rest.foldlM scanChar ⟨tokens, .quoted ((Quoted.encode text).reverse ++ before)⟩ := by
  induction text generalizing before with
  | nil => rfl
  | cons c text ih =>
      rw [Quoted.encode, List.flatMap_cons, List.append_assoc, foldlM_encodeChar, ← Quoted.encode,
        ih, List.reverse_append, List.append_assoc]

theorem readFrom_inQuotes (text : List Char) :
    readFrom tokens (inQuotes (Quoted.encode text) ++ rest) =
      readFrom (.string (Quoted.encode text) :: tokens) rest := by
  have hclose : scanChar ⟨tokens, .quoted (Quoted.encode text).reverse⟩ '"' =
      some ⟨.string (Quoted.encode text) :: tokens, .idle⟩ := by
    simp [scanChar, Quoted.isQuoted_encode]
  have hopen : start tokens '"' = some ⟨tokens, .quoted []⟩ := rfl
  rw [inQuotes, List.cons_append, List.append_assoc, readFrom_cons, hopen, Option.bind_some,
    foldlM_encode, List.append_nil, List.singleton_append, List.foldlM_cons, hclose,
    Option.bind_eq_bind, Option.bind_some, readFrom]

end Token

variable {value : Json} {items : List Json} {members : List (List Char × Json)}

mutual

/-- The tokens of a value. -/
def tokens : Json → List Token
  | .null => [.null]
  | .bool value => [.bool value]
  | .number text => [.number text]
  | .string source => [.string source]
  | .array [] => [.leftBracket, .rightBracket]
  | .array (item :: items) =>
    .leftBracket :: (tokens item ++ itemTokens items ++ [.rightBracket])
  | .object [] => [.leftBrace, .rightBrace]
  | .object ((key, value) :: members) =>
    .leftBrace :: .string key :: .colon :: (tokens value ++ memberTokens members ++ [.rightBrace])

/-- The tokens of the items of an array behind the first. -/
def itemTokens : List Json → List Token
  | [] => []
  | item :: items => .comma :: (tokens item ++ itemTokens items)

/-- The tokens of the members of an object behind the first. -/
def memberTokens : List (List Char × Json) → List Token
  | [] => []
  | (key, value) :: members =>
    .comma :: .string key :: .colon :: (tokens value ++ memberTokens members)

end

/-- A value whose numbers are numbers and whose texts have been written. -/
inductive Writable : Json → Prop where
  | null : Writable .null
  | bool (value : Bool) : Writable (.bool value)
  | number {text : List Char} {n : Number} (h : Number.ofChars? text = some n) :
    Writable (.number text)
  | string (text : List Char) : Writable (.string (Quoted.encode text))
  | array {items : List Json} (hitems : ∀ item ∈ items, Writable item) : Writable (.array items)
  | object {members : List (List Char × Json)}
    (hkeys : ∀ member ∈ members, ∃ text, member.1 = Quoted.encode text)
    (hvalues : ∀ member ∈ members, Writable member.2) : Writable (.object members)

/-- A text that is read as some tokens, whatever comes behind it without going on with a word. -/
def ReadsAs (cs : List Char) (expected : List Token) : Prop :=
  ∀ (before : List Token) {rest : List Char}, Token.EndsWord rest →
    Token.readFrom before (cs ++ rest) = Token.readFrom (expected.reverse ++ before) rest

theorem endsWord_itemChars {depth : Nat} {rest : List Char} (hrest : Token.EndsWord rest)
    (items : List Json) : Token.EndsWord (itemChars depth items ++ rest) := by
  cases items with
  | nil => simpa [itemChars] using hrest
  | cons item items =>
      rw [itemChars]
      exact Token.endsWord_cons rfl

theorem endsWord_memberChars (depth : Nat) {rest : List Char} (hrest : Token.EndsWord rest)
    (members : List (List Char × Json)) : Token.EndsWord (memberChars depth members ++ rest) := by
  cases members with
  | nil => simpa [memberChars] using hrest
  | cons member members =>
      rw [memberChars]
      exact Token.endsWord_cons rfl

theorem endsWord_newLine {depth : Nat} {rest : List Char} :
    Token.EndsWord (newLine depth ++ rest) :=
  Token.endsWord_cons rfl

theorem readsAs_items {depth : Nat}
    (hitems : ∀ item ∈ items, ReadsAs (chars depth item) item.tokens) :
    ReadsAs (itemChars depth items) (itemTokens items) := by
  induction items with
  | nil =>
      intro before rest _
      simp [itemChars, itemTokens]
  | cons item items ih =>
      obtain ⟨hitem, hitems⟩ := List.forall_mem_cons.mp hitems
      intro before rest hrest
      rw [itemChars, itemTokens, List.cons_append, Token.readFrom_mark rfl, List.append_assoc,
        List.append_assoc, Token.readFrom_newLine, hitem _ (endsWord_itemChars hrest items),
        ih hitems _ hrest]
      simp

theorem readsAs_member {depth : Nat} {value : Json} (text : List Char)
    (hvalue : ReadsAs (chars depth value) value.tokens) :
    ReadsAs (inQuotes (Quoted.encode text) ++ [':', ' '] ++ chars depth value)
      (.string (Quoted.encode text) :: .colon :: value.tokens) := by
  intro before rest hrest
  rw [List.append_assoc, List.append_assoc, Token.readFrom_inQuotes, List.cons_append,
    Token.readFrom_mark rfl, List.cons_append, Token.readFrom_space rfl, List.nil_append,
    hvalue _ hrest]
  simp

theorem readsAs_members {depth : Nat}
    (hkeys : ∀ member ∈ members, ∃ text, member.1 = Quoted.encode text)
    (hvalues : ∀ member ∈ members, ReadsAs (chars depth member.2) member.2.tokens) :
    ReadsAs (memberChars depth members) (memberTokens members) := by
  induction members with
  | nil =>
      intro before rest _
      simp [memberChars, memberTokens]
  | cons member members ih =>
      obtain ⟨⟨text, htext⟩, hkeysTail⟩ := List.forall_mem_cons.mp hkeys
      obtain ⟨hvalue, hvaluesTail⟩ := List.forall_mem_cons.mp hvalues
      obtain ⟨key, value⟩ := member
      obtain rfl := htext
      intro before rest hrest
      have hmember := readsAs_member text hvalue (.comma :: before)
        (endsWord_memberChars depth hrest members)
      simp only [List.append_assoc] at hmember
      rw [memberChars, memberTokens, List.cons_append, Token.readFrom_mark rfl]
      simp only [List.append_assoc]
      rw [Token.readFrom_newLine, hmember, ih hkeysTail hvaluesTail _ hrest]
      simp

theorem Writable.readsAs (h : Writable value) (depth : Nat) :
    ReadsAs (chars depth value) value.tokens := by
  induction h generalizing depth with
  | null =>
      intro before rest hrest
      rw [chars, tokens]
      exact Token.readFrom_word (by simp) (List.all_eq_true.mp rfl) rfl hrest
  | bool value =>
      intro before rest hrest
      cases value <;> rw [chars, tokens] <;>
        exact Token.readFrom_word (by simp) (List.all_eq_true.mp rfl) rfl hrest
  | number hnumber =>
      intro before rest hrest
      obtain ⟨hne, hword⟩ := Number.isWordChar_of_ofChars? hnumber
      rw [chars, tokens]
      exact Token.readFrom_word hne hword (Token.ofWord?_number hnumber) hrest
  | string text =>
      intro before rest hrest
      rw [chars, tokens]
      exact Token.readFrom_inQuotes text
  | @array items hitems ih =>
      intro before rest hrest
      cases items with
      | nil =>
          rw [chars, tokens, List.cons_append, Token.readFrom_mark rfl, List.cons_append,
            Token.readFrom_mark rfl]
          rfl
      | cons item items =>
          obtain ⟨hitem, hitems⟩ := List.forall_mem_cons.mp fun item hitem =>
            ih item hitem (depth + 1)
          rw [chars, tokens]
          simp only [List.cons_append, List.append_assoc, List.nil_append]
          rw [Token.readFrom_mark rfl, Token.readFrom_newLine,
            hitem _ (endsWord_itemChars endsWord_newLine items),
            readsAs_items hitems _ endsWord_newLine, Token.readFrom_newLine,
            Token.readFrom_mark rfl]
          simp
  | @object members hkeys hvalues ih =>
      intro before rest hrest
      cases members with
      | nil =>
          rw [chars, tokens, List.cons_append, Token.readFrom_mark rfl, List.cons_append,
            Token.readFrom_mark rfl]
          rfl
      | cons member members =>
          obtain ⟨⟨text, htext⟩, hkeysTail⟩ := List.forall_mem_cons.mp hkeys
          obtain ⟨hvalue, hvaluesTail⟩ := List.forall_mem_cons.mp fun member hmember =>
            ih member hmember (depth + 1)
          obtain ⟨key, value⟩ := member
          obtain rfl := htext
          have hmember := readsAs_member text hvalue (.leftBrace :: before)
            (endsWord_memberChars (depth + 1) (@endsWord_newLine depth ('}' :: rest)) members)
          rw [chars, tokens]
          simp only [List.cons_append, List.append_assoc, List.nil_append] at hmember ⊢
          rw [Token.readFrom_mark rfl, Token.readFrom_newLine, hmember,
            readsAs_members hkeysTail hvaluesTail _ endsWord_newLine, Token.readFrom_newLine,
            Token.readFrom_mark rfl]
          simp

theorem Writable.tokens_chars (h : Writable value) : Token.ofChars? (value.chars 0) =
    some value.tokens := by
  have hend : Token.EndsWord [] := by simp [Token.EndsWord]
  have hread := h.readsAs 0 [] hend
  rw [List.append_nil, List.append_nil, Token.readFrom_nil, List.reverse_reverse] at hread
  exact hread

open Reading (next)

theorem exists_tokens_eq_cons (value : Json) :
    ∃ token rest, value.tokens = token :: rest ∧ token ≠ .rightBracket := by
  unfold tokens
  split <;> exact ⟨_, _, rfl, by simp⟩

theorem next_firstItem {frames : List Frame} {token : Token} (h : token ≠ .rightBracket) :
    next (.firstItem frames) token = next (.expectValue (.array [] :: frames)) token := by
  cases token with
  | rightBracket => exact absurd rfl h
  | _ => rfl

/-- A value that is read as complete from its tokens, whatever is open. -/
def Completes (value : Json) : Prop :=
  ∀ (frames : List Frame) (rest : List Token),
    (value.tokens ++ rest).foldlM next (.expectValue frames) =
      rest.foldlM next (.complete value frames)

theorem completes_items (hitems : ∀ item ∈ items, Completes item) (before : List Json)
    (item : Json) (frames : List Frame) (rest : List Token) :
    (itemTokens items ++ .rightBracket :: rest).foldlM next
        (.complete item (.array before :: frames)) =
      rest.foldlM next (.complete (.array (before.reverse ++ item :: items)) frames) := by
  induction items generalizing before item with
  | nil =>
      rw [itemTokens, List.nil_append, List.foldlM_cons]
      simp [next, Reading.close]
  | cons following items ih =>
      obtain ⟨hfollowing, hitems⟩ := List.forall_mem_cons.mp hitems
      rw [itemTokens, List.cons_append, List.foldlM_cons, List.append_assoc]
      simp only [next, Reading.close, Option.bind_eq_bind, Option.bind_some]
      rw [hfollowing, ih hitems]
      simp

theorem completes_members (hvalues : ∀ member ∈ members, Completes member.2)
    (before : List (List Char × Json)) (key : List Char) (value : Json) (frames : List Frame)
    (rest : List Token) :
    (memberTokens members ++ .rightBrace :: rest).foldlM next
        (.complete value (.object before key :: frames)) =
      rest.foldlM next
        (.complete (.object (before.reverse ++ (key, value) :: members)) frames) := by
  induction members generalizing before key value with
  | nil =>
      rw [memberTokens, List.nil_append, List.foldlM_cons]
      simp [next, Reading.close]
  | cons member members ih =>
      obtain ⟨hvalue, hvalues⟩ := List.forall_mem_cons.mp hvalues
      rw [memberTokens]
      simp only [List.cons_append, List.foldlM_cons, List.append_assoc, next, Reading.close,
        Option.bind_eq_bind, Option.bind_some]
      rw [hvalue, ih hvalues]
      simp

mutual

theorem completes : (value : Json) → Completes value
  | .null => fun _ _ => rfl
  | .bool _ => fun _ _ => rfl
  | .number _ => fun _ _ => rfl
  | .string _ => fun _ _ => rfl
  | .array [] => fun _ _ => rfl
  | .array (item :: items) => fun frames rest => by
    obtain ⟨token, behind, htokens, hne⟩ := exists_tokens_eq_cons item
    have hitem := completes item (.array [] :: frames)
      (itemTokens items ++ .rightBracket :: rest)
    rw [tokens]
    simp only [List.cons_append, List.append_assoc, List.nil_append, List.foldlM_cons, next,
      Reading.openValue, Option.bind_eq_bind, Option.bind_some]
    rw [htokens, List.cons_append, List.foldlM_cons] at hitem ⊢
    rw [next_firstItem hne, hitem, completes_items (completes_all items)]
    rfl
  | .object [] => fun _ _ => rfl
  | .object ((key, value) :: members) => fun frames rest => by
    rw [tokens]
    simp only [List.cons_append, List.append_assoc, List.nil_append, List.foldlM_cons, next,
      Reading.openValue, Option.bind_eq_bind, Option.bind_some]
    rw [completes value, completes_members (completes_values members)]
    rfl

theorem completes_all : (items : List Json) → ∀ item ∈ items, Completes item
  | [] => fun _ h => absurd h List.not_mem_nil
  | item :: items => List.forall_mem_cons.mpr ⟨completes item, completes_all items⟩

theorem completes_values : (members : List (List Char × Json)) →
    ∀ member ∈ members, Completes member.2
  | [] => fun _ h => absurd h List.not_mem_nil
  | (_, value) :: members => List.forall_mem_cons.mpr ⟨completes value, completes_values members⟩

end

/-- A value is read back from its text. -/
theorem Writable.ofText?_text (h : Writable value) : ofText? value.text = some value := by
  have hcomplete := completes value [] []
  rw [List.append_nil] at hcomplete
  rw [ofText?, text, String.toList_ofList, h.tokens_chars, Option.bind_some, ofTokens?, hcomplete]
  rfl

end Spreadsheet.Json
