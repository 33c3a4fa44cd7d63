import GrammarCheck.Proofs.Scanning.Exactness
import GrammarCheck.Proofs.Text.Quoting

/-!
# Tokens as they are shown

What is shown of a scanned token says which kind it has and how it is spelled, although the kind is not
shown: an unknown word begins with a double quote, punctuation with a single one and the end of the input
with a dollar sign, and none of the three can stand in a word that is shown as it is. Control characters
cannot either, so that a token is shown on one line.
-/

namespace GrammarCheck

/-! ### Characters of words -/

theorem isWordCharacter_eq_false_of_isControl {c : Char} (hcontrol : IsControl c) : isWordCharacter c = false := by
  have hall : ∀ codePoint < 0x80, IsControl (Char.ofNat codePoint) → isWordCharacter (Char.ofNat codePoint) = false := by
    decide +kernel
  have hbound : c.toNat < 0x80 := by
    unfold IsControl at hcontrol
    omega
  have hword := hall c.toNat hbound
  rw [Char.ofNat_toNat] at hword
  exact hword hcontrol

theorem Kind.not_isControl_of_punctuation? {kind : Kind} {c : Char} (hkind : kind.punctuation? = some c) :
    ¬IsControl c := by
  rcases kind with _ | ⟨_ | _ | _⟩ | ⟨_ | _ | _⟩ | _ | _ | _ | _ | _ | _ | _ <;> cases hkind <;> decide

/-! ### Scanned tokens -/

/-- What a scanned token can be: a word, which is known by its characters or not, or a token without text. -/
inductive Token.IsLexeme (token : Token) : Prop where
  | word (hword : token.kind = .nonTerminal ∨ token.kind = .terminal)
      (hcharacters : Kind.ofCharacters token.spelling.toList = token.kind)
  | unknown (hkind : token.kind = .unknown)
  | punctuation (c : Char) (hkind : token.kind.punctuation? = some c) (htext : token.text = [])
  | endOfInput (hkind : token.kind = .endOfInput) (htext : token.text = [])

theorem Token.isLexeme_of_eq_ofWord {token : Token} (hkind : token.kind = Kind.ofWord token.text) : token.IsLexeme := by
  by_cases hknown : token.kind = .unknown
  · exact .unknown hknown
  · have hword := Kind.ofWord_cases token.text
    obtain ⟨first, rest, hdecode, hcharacters⟩ := (Kind.ofWord_eq_iff hknown token.text).1 hkind.symm
    rw [← hkind] at hword
    refine .word (by tauto) ?_
    rw [spelling, (Utf8.decode?_eq_some_iff _ _).1 hdecode, Utf8.decodeLossy_encode, String.toList_ofList, hcharacters]

theorem isLexeme_of_mem_scan {source : List UInt8} {token : Token} (hmem : token ∈ scan source) : token.IsLexeme := by
  obtain ⟨piece, hpiece, htoken⟩ := exists_piece_of_mem_scan hmem
  rw [← htoken]
  rcases hpiece with hoccurs | rfl
  · cases hoccurs with
    | @punctuation offset byte kind _ hkind =>
      exact .punctuation _ ((Kind.ofPunctuation?_eq_some_iff byte kind).1 hkind) rfl
    | word _ hkind => exact Token.isLexeme_of_eq_ofWord hkind.eq_ofWord
  · exact .endOfInput rfl rfl

namespace Token

variable {token other : Token}

theorem IsLexeme.text_eq_nil (hlexeme : token.IsLexeme)
    (htextless : (∃ c, token.kind.punctuation? = some c) ∨ token.kind = .endOfInput) : token.text = [] := by
  cases hlexeme with
  | word hword => rcases hword with hkind | hkind <;> simp [hkind, Kind.punctuation?] at htextless
  | unknown hkind => simp [hkind, Kind.punctuation?] at htextless
  | punctuation _ _ htext => exact htext
  | endOfInput _ htext => exact htext

theorem isWordCharacter_of_mem_spelling (hword : token.kind = .nonTerminal ∨ token.kind = .terminal)
    (hcharacters : Kind.ofCharacters token.spelling.toList = token.kind) :
    ∀ c ∈ token.spelling.toList, isWordCharacter c = true := by
  apply Kind.isWordCharacter_of_mem
  rw [hcharacters]
  rcases hword with hkind | hkind <;> simp [hkind]

/-! ### What is shown -/

/-- What is shown of a token after its line. -/
def shown (token : Token) : String :=
  match token.kind with
  | .unknown => Quoted.quote token.spelling
  | .nonTerminal | .terminal => token.spelling
  | .endOfInput => "$"
  | .endOfLine => "eol"
  | kind => kind.punctuation?.elim "" fun c => s!"'{c}'"

theorem render_eq (token : Token) : token.render = s!"({token.line} {token.shown})" := by
  obtain ⟨kind, text, position, index⟩ := token
  rcases kind with _ | ⟨_ | _ | _⟩ | ⟨_ | _ | _⟩ | _ | _ | _ | _ | _ | _ | _ <;> rfl

theorem shown_of_word (hword : token.kind = .nonTerminal ∨ token.kind = .terminal) : token.shown = token.spelling := by
  rcases hword with hkind | hkind <;> rw [shown, hkind]

theorem shown_of_unknown (hkind : token.kind = .unknown) : token.shown = Quoted.quote token.spelling := by
  rw [shown, hkind]

theorem toList_shown_of_punctuation {c : Char} (hkind : token.kind.punctuation? = some c) :
    token.shown.toList = ['\x27', c, '\x27'] := by
  have hshown : token.shown = s!"'{c}'" := by
    rw [shown]
    split
    case h_6 => rw [hkind]; rfl
    all_goals simp_all [Kind.punctuation?]
  rw [hshown]
  simp [toString]

theorem shown_of_endOfInput (hkind : token.kind = .endOfInput) : token.shown = "$" := by
  rw [shown, hkind]

theorem IsLexeme.noControls_shown (hlexeme : token.IsLexeme) : NoControls token.shown := by
  cases hlexeme with
  | word hword hcharacters =>
    intro c hmem hcontrol
    rw [shown_of_word hword] at hmem
    have hwordCharacter := isWordCharacter_of_mem_spelling hword hcharacters c hmem
    rw [isWordCharacter_eq_false_of_isControl hcontrol] at hwordCharacter
    contradiction
  | unknown hkind =>
    rw [shown_of_unknown hkind]
    exact Quoted.noControls_quote _
  | punctuation c hkind =>
    have hquote : ¬IsControl '\x27' := by decide
    have hmark := Kind.not_isControl_of_punctuation? hkind
    rw [NoControls, toList_shown_of_punctuation hkind]
    simp only [List.forall_mem_cons, hquote, hmark, not_false_eq_true, List.not_mem_nil, false_implies, implies_true,
      and_self]
  | endOfInput hkind =>
    rw [shown_of_endOfInput hkind]
    decide

end Token

/-! ### What is read off it -/

/-- The kind of a token by the characters that are shown of it. -/
def Kind.ofShown : List Char → Kind
  | '"' :: _ => .unknown
  | '$' :: _ => .endOfInput
  | '\x27' :: c :: _ => (Kind.ofPunctuation? (UInt8.ofNat c.toNat)).getD .unknown
  | characters => Kind.ofCharacters characters

theorem Kind.ofShown_of_isWordCharacter {characters : List Char}
    (hword : ∀ c ∈ characters, isWordCharacter c = true) : Kind.ofShown characters = Kind.ofCharacters characters := by
  have hmarks : isWordCharacter '"' = false ∧ isWordCharacter '$' = false ∧ isWordCharacter '\x27' = false := by
    decide +kernel
  rw [Kind.ofShown.eq_def]
  split
  all_goals simp_all

theorem Kind.ofPunctuation?_of_punctuation? {kind : Kind} {c : Char} (hkind : kind.punctuation? = some c) :
    Kind.ofPunctuation? (UInt8.ofNat c.toNat) = some kind := by
  have hbyte : (UInt8.ofNat c.toNat).toNat = c.toNat :=
    UInt8.toNat_ofNat_of_lt' (Nat.lt_trans (Kind.toNat_lt_of_punctuation? hkind) (by decide))
  rw [Kind.ofPunctuation?_eq_some_iff, hbyte, Char.ofNat_toNat, hkind]

namespace Token

variable {token other : Token}

theorem IsLexeme.ofShown_shown (hlexeme : token.IsLexeme) : Kind.ofShown token.shown.toList = token.kind := by
  cases hlexeme with
  | word hword hcharacters =>
    have hall := isWordCharacter_of_mem_spelling hword hcharacters
    rw [shown_of_word hword, Kind.ofShown_of_isWordCharacter hall, hcharacters]
  | unknown hkind =>
    rw [shown_of_unknown hkind, Quoted.quote, String.toList_ofList, hkind]
    rfl
  | punctuation c hkind =>
    rw [toList_shown_of_punctuation hkind, Kind.ofShown, Kind.ofPunctuation?_of_punctuation? hkind, Option.getD_some]
  | endOfInput hkind =>
    rw [shown_of_endOfInput hkind, hkind]
    rfl

theorem IsLexeme.kind_eq_of_shown_eq (hlexeme : token.IsLexeme) (hother : other.IsLexeme)
    (hshown : token.shown = other.shown) : token.kind = other.kind := by
  rw [← hlexeme.ofShown_shown, hshown, hother.ofShown_shown]

theorem IsLexeme.spelling_eq_of_shown_eq (hlexeme : token.IsLexeme) (hother : other.IsLexeme)
    (hshown : token.shown = other.shown) : token.spelling = other.spelling := by
  have hkind := hlexeme.kind_eq_of_shown_eq hother hshown
  cases hlexeme with
  | word hword => rwa [shown_of_word hword, shown_of_word (hkind ▸ hword)] at hshown
  | unknown hunknown =>
    rw [shown_of_unknown hunknown, shown_of_unknown (hkind ▸ hunknown)] at hshown
    exact Quoted.quote_injective hshown
  | punctuation c hpunctuation htext => rw [spelling, spelling, htext, hother.text_eq_nil (.inl ⟨c, hkind ▸ hpunctuation⟩)]
  | endOfInput hstop htext => rw [spelling, spelling, htext, hother.text_eq_nil (.inr (hkind ▸ hstop))]

end Token

end GrammarCheck
