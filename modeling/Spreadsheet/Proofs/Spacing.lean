import Mathlib.Logic.Relation
import Spreadsheet.Proofs.TypedNumbers

namespace Spreadsheet

namespace Token

open Relation (ReflTransGen)

variable {extent : Extent} {c : Char} {before blanks after after' word cs cs' rest : List Char}
  {token : Token}

/-- One round of reading passes over a blank or takes a token off the start of what is left. -/
inductive Advances (extent : Extent) : List Char → List Char → Prop
  | blank {c : Char} {rest : List Char} (h : Text.isBlank c = true) :
      Advances extent (c :: rest) rest
  | token {c : Char} {rest after : List Char} {token : Token} (hblank : Text.isBlank c = false)
      (h : next extent c rest = .ok (token, after)) : Advances extent (c :: rest) after

/-- The second text is the first one with white space put in at some place. -/
inductive Padded : List Char → List Char → Prop
  | here {blanks : List Char} (hblanks : ∀ c ∈ blanks, Text.isBlank c = true)
      (after : List Char) : Padded after (blanks ++ after)
  | later (c : Char) {cs cs' : List Char} (h : Padded cs cs') : Padded (c :: cs) (c :: cs')

theorem Padded.refl (cs : List Char) : Padded cs cs := by
  have hnone : ∀ c ∈ ([] : List Char), Text.isBlank c = true := by simp
  exact .here hnone cs

theorem Padded.append_left (h : Padded cs cs') (before : List Char) :
    Padded (before ++ cs) (before ++ cs') := by
  induction before with
  | nil => exact h
  | cons c before ih => exact .later c ih

theorem Padded.uncons (h : Padded cs (c :: rest)) (hc : Text.isBlank c = false) :
    ∃ others, cs = c :: others ∧ Padded others rest := by
  generalize hwhole : c :: rest = whole at h
  cases h with
  | @here blanks hblanks =>
      cases blanks with
      | nil => exact ⟨rest, hwhole.symm, .refl rest⟩
      | cons blank blanks =>
          obtain ⟨rfl, -⟩ := List.cons.inj hwhole
          rw [hblanks c List.mem_cons_self] at hc
          cases hc
  | later d h =>
      obtain ⟨rfl, rfl⟩ := List.cons.inj hwhole
      exact ⟨_, rfl, h⟩

theorem Padded.of_append {front : List Char} (h : Padded cs (front ++ rest))
    (hfront : ∀ c ∈ front, Text.isBlank c = false) :
    ∃ others, cs = front ++ others ∧ Padded others rest := by
  induction front generalizing cs with
  | nil => exact ⟨cs, rfl, h⟩
  | cons c front ih =>
      obtain ⟨behind, rfl, hbehind⟩ := h.uncons (hfront c List.mem_cons_self)
      obtain ⟨others, rfl, hpad⟩ := ih hbehind fun d hd => hfront d (List.mem_cons_of_mem c hd)
      exact ⟨others, rfl, hpad⟩

theorem Padded.head (h : Padded cs cs') {p : Char → Bool}
    (hp : ∀ c, Text.isBlank c = true → p c = false) (hhead : ∀ c ∈ cs.head?, p c = false) :
    ∀ c ∈ cs'.head?, p c = false := by
  intro c hc
  obtain ⟨rest, rfl⟩ := List.head?_eq_some_iff.mp hc
  cases hblank : Text.isBlank c with
  | true => exact hp c hblank
  | false =>
      obtain ⟨others, rfl, -⟩ := h.uncons hblank
      exact hhead c rfl

theorem Padded.head_dropWhile (h : Padded cs cs') :
    (cs'.dropWhile Text.isBlank).head? = (cs.dropWhile Text.isBlank).head? := by
  induction h with
  | here hblanks after => rw [List.dropWhile_append_of_pos hblanks]
  | later c h ih =>
      simp only [List.dropWhile_cons]
      split
      · exact ih
      · rfl

theorem isAlphanum_of_isBlank (h : Text.isBlank c = true) : c.isAlphanum = false :=
  Text.not_isAlphanum_of_not_isWordChar (Text.isWordChar_of_isBlank h)

/-- A way to cut a text in two. -/
structure Cuts (split : List Char → List Char × List Char) : Prop where
  append : ∀ cs, (split cs).1 ++ (split cs).2 = cs
  /-- White space that is put in behind the cut does not move it. -/
  steady : ∀ {word after after'}, Padded after after' → split (word ++ after) = (word, after) →
    split (word ++ after') = (word, after')

variable {split first second : List Char → List Char × List Char}

theorem Cuts.eq_of_snd (h : Cuts split) (hafter : (split (word ++ after)).2 = after) :
    split (word ++ after) = (word, after) := by
  have happend := h.append (word ++ after)
  rw [hafter] at happend
  exact Prod.ext (List.append_cancel_right happend) hafter

theorem Cuts.andThen (h : Cuts first) (h' : Cuts second) :
    Cuts fun cs => ((first cs).1 ++ (second (first cs).2).1, (second (first cs).2).2) where
  append cs := by
    rw [List.append_assoc, h'.append, h.append]
  steady := by
    intro word after after' hpad hcut
    cases hfirst : first (word ++ after) with | mk a rest =>
    cases hsecond : second rest with | mk b behind =>
    simp only [hfirst, hsecond, Prod.mk.injEq] at hcut
    obtain ⟨rfl, rfl⟩ := hcut
    obtain rfl : b ++ behind = rest := by
      simpa [hsecond] using h'.append rest
    rw [List.append_assoc] at hfirst
    have hfirst' := h.steady (hpad.append_left b) hfirst
    rw [List.append_assoc, hfirst']
    dsimp only
    rw [h'.steady hpad hsecond]

theorem cuts_span {p : Char → Bool} (hp : ∀ c, Text.isBlank c = true → p c = false) :
    Cuts fun cs => (cs.takeWhile p, cs.dropWhile p) where
  append cs := List.takeWhile_append_dropWhile
  steady := by
    intro word after after' hpad hcut
    obtain ⟨htake, hdrop⟩ := Prod.mk.inj hcut
    have hword : ∀ c ∈ word, p c = true := fun c hc => List.mem_takeWhile_imp (htake.symm ▸ hc)
    have hafter : ∀ c ∈ after.head?, p c = false := by
      intro c hc
      have hhead := List.head?_dropWhile_not p (word ++ after)
      rw [hdrop, hc] at hhead
      exact hhead
    have hafter' := hpad.head hp hafter
    rw [Text.takeWhile_append_of_head hafter', Text.dropWhile_append_of_head hafter',
      List.takeWhile_eq_self_iff.mpr hword, List.dropWhile_eq_nil_iff.mpr hword, List.nil_append]

theorem cuts_of_opens (Opens : List Char → Char → Prop) {p : Char → Bool}
    (hp : ∀ c, Text.isBlank c = true → p c = false)
    (hopens : ∀ front d, Opens front d → (∀ c ∈ front, Text.isBlank c = false) ∧ p d = true)
    (hcut : ∀ front d rest, Opens front d → split (front ++ d :: rest) =
      (front ++ (d :: rest).takeWhile p, (d :: rest).dropWhile p))
    (hcases : ∀ cs, split cs = ([], cs) ∨ ∃ front d rest, cs = front ++ d :: rest ∧ Opens front d) :
    Cuts split where
  append cs := by
    rcases hcases cs with hnone | ⟨front, d, rest, rfl, hopen⟩
    · rw [hnone, List.nil_append]
    · rw [hcut front d rest hopen, List.append_assoc, List.takeWhile_append_dropWhile]
  steady := by
    intro word after after' hpad hword
    rcases hcases (word ++ after) with hnone | ⟨front, d, rest, hwhole, hopen⟩
    -- white space makes no opening, and what is behind it is not in front
    · obtain rfl : word = [] := congrArg Prod.fst (hword.symm.trans hnone)
      refine (hcases after').resolve_right ?_
      rintro ⟨front, d, rest, rfl, hopen⟩
      obtain ⟨hfront, hd⟩ := hopens front d hopen
      have hvisible : ∀ c ∈ front ++ [d], Text.isBlank c = false := by
        intro c hc
        rcases List.mem_append.mp hc with hc | hc
        · exact hfront c hc
        · obtain rfl := List.mem_singleton.mp hc
          refine Bool.eq_false_iff.mpr fun hblank => ?_
          rw [hp c hblank] at hd
          cases hd
      rw [List.append_cons] at hpad
      obtain ⟨others, rfl, -⟩ := hpad.of_append hvisible
      rw [← List.append_cons, List.nil_append, hcut front d others hopen,
        List.takeWhile_cons_of_pos hd] at hword
      simp at hword
    · obtain ⟨-, hd⟩ := hopens front d hopen
      rw [hwhole, hcut front d rest hopen] at hword
      obtain ⟨rfl, hafter⟩ := Prod.mk.inj hword
      have hspan := (cuts_span hp).steady hpad <| (cuts_span hp).eq_of_snd <|
        show ((d :: rest).takeWhile p ++ after).dropWhile p = after by
          rw [← hafter, List.takeWhile_append_dropWhile]
      rw [List.takeWhile_cons_of_pos hd] at hspan ⊢
      obtain ⟨htake, hdrop⟩ := Prod.mk.inj hspan
      rw [List.append_assoc, List.cons_append, hcut front d _ hopen, ← List.cons_append, htake,
        hdrop]

/-- The letter of a power of ten, with the sign behind it, and the first digit. -/
def OpensPower (front : List Char) (d : Char) : Prop :=
  ∃ c sign, front = c :: sign ∧ (c = 'e' ∨ c = 'E') ∧
    (sign = [] ∨ sign = ['+'] ∨ sign = ['-']) ∧ d.isDigit = true

theorem OpensPower.splitPower_eq {front : List Char} {d : Char} (h : OpensPower front d)
    (rest : List Char) : splitPower (front ++ d :: rest) =
      (front ++ (d :: rest).takeWhile Char.isDigit, (d :: rest).dropWhile Char.isDigit) := by
  obtain ⟨c, sign, rfl, hc, hsign, hd⟩ := h
  have hsplit : splitPowerSign (sign ++ d :: rest) = (sign, d :: rest) := by
    rcases hsign with rfl | rfl | rfl
    · exact Numeral.splitPowerSign_of_isDigit hd rest
    · rfl
    · rfl
  rw [List.cons_append, splitPower, hsplit]
  dsimp only
  rw [List.takeWhile_cons_of_pos hd]
  rcases hc with rfl | rfl <;> rfl

theorem splitPower_cases (cs : List Char) : splitPower cs = ([], cs) ∨
    ∃ front d rest, cs = front ++ d :: rest ∧ OpensPower front d := by
  cases cs with
  | nil => exact .inl rfl
  | cons c behind =>
      obtain ⟨sign, rest, hsplit, rfl, hsign⟩ : ∃ sign rest, splitPowerSign behind = (sign, rest) ∧
          behind = sign ++ rest ∧ (sign = [] ∨ sign = ['+'] ∨ sign = ['-']) := by
        unfold splitPowerSign
        split <;> exact ⟨_, _, rfl, rfl, by simp⟩
      rw [splitPower, hsplit]
      split
      · rename_i hpower
        simp only [Bool.and_eq_true, Bool.or_eq_true, beq_iff_eq, Bool.not_eq_true',
          List.isEmpty_eq_false_iff] at hpower
        obtain ⟨d, digits, hdigits⟩ := List.exists_cons_of_ne_nil hpower.2
        have hd : d ∈ rest.takeWhile Char.isDigit := hdigits ▸ List.mem_cons_self
        have hrest : rest = d :: (digits ++ rest.dropWhile Char.isDigit) := by
          rw [← List.cons_append, ← hdigits, List.takeWhile_append_dropWhile]
        refine .inr ⟨c :: sign, d, _, congrArg (c :: sign ++ ·) hrest, c, sign, rfl, hpower.1,
          hsign, List.mem_takeWhile_imp hd⟩
      · exact .inl rfl

theorem cuts_splitPower : Cuts splitPower := by
  refine cuts_of_opens OpensPower (fun _ => Text.isDigit_of_isBlank) ?_
    (fun front d rest h => h.splitPower_eq rest) splitPower_cases
  rintro _ d ⟨c, sign, rfl, hc, hsign, hd⟩
  have hletter : Text.isBlank c = false := by
    rcases hc with rfl | rfl <;> decide
  have hsign : sign.all (Text.isBlank · = false) = true := by
    rcases hsign with rfl | rfl | rfl <;> decide
  exact ⟨List.forall_mem_cons.mpr ⟨hletter, by simpa using hsign⟩, hd⟩

theorem cuts_splitJoined : Cuts splitJoined := by
  refine cuts_of_opens (fun front d => front = [':'] ∧ d.isAlpha = true)
    (fun _ => isAlphanum_of_isBlank) ?_ ?_ ?_
  · rintro _ d ⟨rfl, hd⟩
    have hcolon : ∀ c ∈ [':'], Text.isBlank c = false := List.forall_mem_singleton.mpr (by decide)
    exact ⟨hcolon, Text.isAlphanum_iff.mpr (.inl hd)⟩
  · rintro _ d rest ⟨rfl, hd⟩
    exact if_pos hd
  · intro cs
    unfold splitJoined
    split
    · rename_i d rest
      split
      · rename_i hd
        exact .inr ⟨[':'], d, rest, rfl, rfl, hd⟩
      · exact .inl rfl
    · exact .inl rfl

theorem cuts_splitNumeral : Cuts splitNumeral :=
  (cuts_span fun _ => isNumeralChar_of_isBlank).andThen cuts_splitPower

theorem cuts_splitWord : Cuts splitWord :=
  (cuts_span fun _ => isAlphanum_of_isBlank).andThen cuts_splitJoined

theorem ofWord_padded (hpad : Padded after after') (word : List Char) :
    ofWord extent word after' = ofWord extent word after := by
  unfold ofWord
  rw [hpad.head_dropWhile]

/-- White space that is put in behind a token leaves the token as it is. -/
theorem next_padded (hpad : Padded after after')
    (h : next extent c (word ++ after) = .ok (token, after)) :
    next extent c (word ++ after') = .ok (token, after') := by
  unfold next at h ⊢
  cases hsign : sign? c with
  | some sign =>
      simp only [hsign] at h
      obtain ⟨rfl, hafter⟩ := Prod.mk.inj (Except.ok.inj h)
      obtain rfl : word = [] := by simpa using hafter
      rfl
  | none =>
      simp only [hsign] at h
      dsimp only
      split at h
      · rename_i hnumeral
        rw [if_pos hnumeral]
        split at h
        · rename_i n hn
          obtain ⟨rfl, hafter⟩ := Prod.mk.inj (Except.ok.inj h)
          have hcut : splitNumeral (c :: word ++ after) = (c :: word, after) :=
            cuts_splitNumeral.eq_of_snd hafter
          have hcut' := cuts_splitNumeral.steady hpad hcut
          rw [List.cons_append] at hcut hcut'
          rw [hcut] at hn
          simp only [hcut', hn]
        · cases h
      rename_i hnumeral
      rw [if_neg hnumeral]
      split at h
      · rename_i hletter
        rw [if_pos hletter]
        obtain ⟨rfl, hafter⟩ := Prod.mk.inj (Except.ok.inj h)
        have hcut : splitWord (c :: word ++ after) = (c :: word, after) :=
          cuts_splitWord.eq_of_snd hafter
        have hcut' := cuts_splitWord.steady hpad hcut
        rw [List.cons_append] at hcut hcut'
        rw [hcut, hcut', ofWord_padded hpad]
      · cases h

theorem exists_append_of_next (h : next extent c rest = .ok (token, after)) :
    ∃ word, rest = word ++ after := by
  obtain ⟨word, hword, -⟩ := exists_isText h
  cases word with
  | nil => exact absurd (congrArg List.length hword) (Nat.ne_of_gt (length_of_next h))
  | cons d word => exact ⟨word, (List.cons.inj hword).2⟩

theorem exists_append_of_reflTransGen (h : ReflTransGen (Advances extent) cs rest) :
    ∃ front, cs = front ++ rest := by
  induction h using ReflTransGen.head_induction_on with
  | refl => exact ⟨[], rfl⟩
  | head hstep _ ih =>
      obtain ⟨behind, rfl⟩ := ih
      cases hstep with
      | @blank c => exact ⟨c :: behind, rfl⟩
      | @token c _ _ _ _ hnext =>
          obtain ⟨word, rfl⟩ := exists_append_of_next hnext
          exact ⟨c :: (word ++ behind), by simp⟩

/-- The tokens of a text, or the failure, stay the same when white space is put in where the text is
cut. -/
theorem tokenize_insert (hplace : ReflTransGen (Advances extent) (before ++ after) after)
    (hblanks : ∀ c ∈ blanks, Text.isBlank c = true) :
    tokenize extent (before ++ (blanks ++ after)) = tokenize extent (before ++ after) := by
  -- the white space is behind each token that is taken on the way, so none of them changes
  generalize hwhole : before ++ after = whole at hplace
  induction hplace using ReflTransGen.head_induction_on generalizing before with
  | refl =>
      obtain rfl : before = [] := by simpa using hwhole
      exact tokenize_append_of_isBlank hblanks after
  | head hstep hrest ih =>
      obtain ⟨behind, rfl⟩ := exists_append_of_reflTransGen hrest
      have ih := ih rfl
      cases hstep with
      | @blank c _ hblank =>
          obtain rfl : before = c :: behind := List.append_cancel_right hwhole
          rw [List.cons_append, tokenize_of_isBlank hblank, tokenize_of_isBlank hblank, ih]
      | @token c _ _ token hblank hnext =>
          obtain ⟨word, rfl⟩ := exists_append_of_next hnext
          obtain rfl : before = c :: (word ++ behind) := by
            rw [← List.append_assoc, ← List.cons_append] at hwhole
            exact List.append_cancel_right hwhole
          have hpad := (Padded.here hblanks after).append_left behind
          rw [List.cons_append, List.append_assoc, tokenize_cons hblank (next_padded hpad hnext),
            tokenize_cons hblank hnext, ih]

end Token

open Token

/-- White space between tokens is irrelevant: put in at any place at which the reading of a text has
come to the next token or to the end, it changes neither the tokens nor a failure, and so neither
the formula. -/
theorem parseFormula_insert {extent : Extent} {before blanks after : String}
    (hplace : Relation.ReflTransGen (Advances extent) (before ++ after).toList after.toList)
    (hblanks : ∀ c ∈ blanks.toList, Text.isBlank c = true) :
    tokenize extent (before ++ blanks ++ after).toList =
        tokenize extent (before ++ after).toList ∧
      parseFormula extent (before ++ blanks ++ after) = parseFormula extent (before ++ after) := by
  have htokens : tokenize extent (before ++ blanks ++ after).toList =
      tokenize extent (before ++ after).toList := by
    rw [String.toList_append] at hplace
    rw [String.toList_append, String.toList_append, String.toList_append, List.append_assoc]
    exact tokenize_insert hplace hblanks
  refine ⟨htokens, ?_⟩
  unfold parseFormula
  rw [htokens]

theorem parseFormula_insert_splitCall :
    (Relation.ReflTransGen (Advances ⟨3, 3⟩) ("2e+sum" ++ "(A1:B2)").toList "(A1:B2)".toList ∧
      ∀ c ∈ "\t\u2003 ".toList, Text.isBlank c = true) ∧
    tokenize ⟨3, 3⟩ ("2e+sum" ++ "\t\u2003 " ++ "(A1:B2)").toList =
        tokenize ⟨3, 3⟩ ("2e+sum" ++ "(A1:B2)").toList ∧
      parseFormula ⟨3, 3⟩ ("2e+sum" ++ "\t\u2003 " ++ "(A1:B2)") =
        parseFormula ⟨3, 3⟩ ("2e+sum" ++ "(A1:B2)") := by
  have hblanks : ∀ c ∈ "\t\u2003 ".toList, Text.isBlank c = true :=
    List.all_eq_true.mp (by decide +kernel)
  have hplace : Relation.ReflTransGen (Advances ⟨3, 3⟩) ("2e+sum" ++ "(A1:B2)").toList
      "(A1:B2)".toList := by
    have htext : ("2e+sum" ++ "(A1:B2)").toList =
        ['2', 'e', '+', 's', 'u', 'm', '(', 'A', '1', ':', 'B', '2', ')'] := by decide +kernel
    have hcall : "(A1:B2)".toList = ['(', 'A', '1', ':', 'B', '2', ')'] := by decide +kernel
    have hnumber : next ⟨3, 3⟩ '2' ('e' :: '+' :: 's' :: 'u' :: 'm' :: "(A1:B2)".toList) =
        .ok (.number 2.0, 'e' :: '+' :: 's' :: 'u' :: 'm' :: "(A1:B2)".toList) := by decide +kernel
    have hletter : next ⟨3, 3⟩ 'e' ('+' :: 's' :: 'u' :: 'm' :: "(A1:B2)".toList) =
        .ok (.literal "e", '+' :: 's' :: 'u' :: 'm' :: "(A1:B2)".toList) := by decide +kernel
    have hname : next ⟨3, 3⟩ 's' ('u' :: 'm' :: "(A1:B2)".toList) =
        .ok (.name "SUM", "(A1:B2)".toList) := by decide +kernel
    rw [hcall] at hnumber hletter hname ⊢
    rw [htext]
    exact .head (.token (by decide) hnumber) <| .head (.token (by decide) hletter) <|
      .head (.token (by decide) rfl) <| .single (.token (by decide) hname)
  exact ⟨⟨hplace, hblanks⟩, parseFormula_insert hplace hblanks⟩

end Spreadsheet
