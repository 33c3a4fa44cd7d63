import GrammarCheck.CommandLine.Outcome
import GrammarCheck.Proofs.Scanning.Prefix
import GrammarCheck.Proofs.Scanning.Recoding
import GrammarCheck.Proofs.Scanning.Shown
import Mathlib.Data.List.Forall2

/-!
# Listing the tokens of a file

A listing has one line for each token, whatever the bytes of the file are, and it is faithful: files with the
same listing have the same tokens, as far as their texts can be told apart without looking at ill-formed
bytes.
-/

namespace GrammarCheck

/-! ### Lines of tokens -/

namespace Token

variable {token other : Token}

/-- The line of a token in a listing. -/
def listed (token : Token) : String := s!"{token.position.render}: {token.render}"

/-- The tokens agree in what they are and in where they stand. Their texts agree in what can be read of them. -/
structure Agrees (token other : Token) : Prop where
  kind_eq : token.kind = other.kind
  position_eq : token.position = other.position
  index_eq : token.index = other.index
  spelling_eq : token.spelling = other.spelling

theorem Agrees.eq (hagrees : token.Agrees other) (htext : token.text = other.text) : token = other := by
  obtain ⟨kind, text, position, index⟩ := token
  obtain ⟨kind', text', position', index'⟩ := other
  exact (Token.mk.injEq ..).mpr ⟨hagrees.kind_eq, htext, hagrees.position_eq, hagrees.index_eq⟩

theorem toList_listed (token : Token) :
    token.listed.toList = Nat.toDigits 10 token.position.line ++ ':' :: (Nat.toDigits 10 token.position.column ++
      ':' :: (' ' :: '(' :: Nat.toDigits 10 token.position.line ++ ' ' :: token.shown.toList ++ [')'])) := by
  simp [listed, render_eq, Position.render, line, toString, Nat.repr]

theorem colon_not_mem_toDigits (number : Nat) : ':' ∉ Nat.toDigits 10 number := by
  intro hmem
  obtain ⟨digit, hdigit⟩ := exists_of_mem_toDigits (by decide) hmem
  exact Nat.digitChar_ne ':' rfl hdigit.symm

/-- Numbers have no colons, so that the two colons show where the line and the column end. -/
theorem eq_of_listed_eq (hlisted : token.listed = other.listed) :
    token.position = other.position ∧ token.shown = other.shown := by
  have htext := congrArg String.toList hlisted
  rw [toList_listed, toList_listed] at htext
  obtain ⟨hline, hrest⟩ := append_cons_inj_of_not_mem (colon_not_mem_toDigits _) (colon_not_mem_toDigits _) htext
  obtain ⟨hcolumn, hrest⟩ := append_cons_inj_of_not_mem (colon_not_mem_toDigits _) (colon_not_mem_toDigits _) hrest
  have hposition : token.position = other.position :=
    congrArg₂ Position.mk (toDigits_ten_injective hline) (toDigits_ten_injective hcolumn)
  rw [hposition] at hrest
  refine ⟨hposition, String.toList_inj.1 ?_⟩
  exact (List.cons.inj (List.append_cancel_left (List.append_cancel_right hrest))).2

theorem IsLexeme.noControls_listed (hlexeme : token.IsLexeme) : NoControls token.listed := by
  have hshown := hlexeme.noControls_shown
  simp +decide [listed, render_eq, Position.render, hshown]

theorem IsLexeme.agrees (hlexeme : token.IsLexeme) (hother : other.IsLexeme) (hlisted : token.listed = other.listed)
    (hindex : token.index = other.index) : token.Agrees other := by
  obtain ⟨hposition, hshown⟩ := eq_of_listed_eq hlisted
  exact ⟨hlexeme.kind_eq_of_shown_eq hother hshown, hposition, hindex, hlexeme.spelling_eq_of_shown_eq hother hshown⟩

end Token

/-! ### Tokens of two sources -/

section Scan

variable {source other : List UInt8}

/-- The indices are not listed. They are the places in the list. -/
theorem agrees_of_map_listed_eq (hlisted : (scan source).map Token.listed = (scan other).map Token.listed) :
    List.Forall₂ Token.Agrees (scan source) (scan other) := by
  have hlength : (scan source).length = (scan other).length := by
    simpa only [List.length_map] using congrArg List.length hlisted
  refine List.forall₂_iff_get.2 ⟨hlength, ?_⟩
  intro place hplace hplace'
  rw [List.get_eq_getElem, List.get_eq_getElem]
  apply (isLexeme_of_mem_scan (List.getElem_mem _)).agrees (isLexeme_of_mem_scan (List.getElem_mem _))
  · have hline := List.getElem_of_eq hlisted (i := place) (by rwa [List.length_map])
    rwa [List.getElem_map, List.getElem_map] at hline
  · exact (index_getElem_scan hplace).trans (index_getElem_scan hplace').symm

theorem scan_eq_of_agrees (hvalid : Utf8.isValid source = true) (hvalid' : Utf8.isValid other = true)
    (hagrees : List.Forall₂ Token.Agrees (scan source) (scan other)) : scan source = scan other := by
  refine List.ext_get hagrees.length_eq fun place hplace hplace' => ?_
  have hboth := hagrees.get hplace hplace'
  apply hboth.eq
  rw [text_eq_of_isValid hvalid (List.get_mem _ _), hboth.spelling_eq, ← text_eq_of_isValid hvalid' (List.get_mem _ _)]

end Scan

/-! ### The listing -/

namespace CommandLine.Outcome

/-- The outcome of listing the tokens of a file with the given contents. -/
def ofTokens (verbosity : Nat) (file : String) (contents : List UInt8) : Outcome :=
  ofInvocation { verbosity, command := .tokens file } (.ok contents)

theorem hasLines_ofTokens (verbosity : Nat) (file : String) (contents : List UInt8) :
    HasLines (ofTokens verbosity file contents).stdout ((scan contents).map Token.listed) where
  text_eq := by
    rw [List.map_map]
    rfl
  newline_not_mem := by
    intro line hline
    obtain ⟨token, hmem, rfl⟩ := List.mem_map.1 hline
    exact (isLexeme_of_mem_scan hmem).noControls_listed.newline_not_mem

/-- A listing has one line for each token. Sources with the same listing have as many tokens, and they agree in
everything but ill-formed bytes. If both sources are well formed, the tokens are the same. -/
theorem agrees_of_stdout_ofTokens_eq (verbosity verbosity' : Nat) (file file' : String) (source other : List UInt8) :
    HasLines (ofTokens verbosity file source).stdout ((scan source).map Token.listed) ∧
      ((ofTokens verbosity file source).stdout = (ofTokens verbosity' file' other).stdout →
        List.Forall₂ Token.Agrees (scan source) (scan other) ∧
          (Utf8.isValid source = true → Utf8.isValid other = true → scan source = scan other)) := by
  refine ⟨hasLines_ofTokens verbosity file source, fun hstdout => ?_⟩
  have hlines := hasLines_ofTokens verbosity file source
  rw [hstdout] at hlines
  have hagrees := agrees_of_map_listed_eq (hlines.unique (hasLines_ofTokens verbosity' file' other))
  exact ⟨hagrees, fun hvalid hvalid' => scan_eq_of_agrees hvalid hvalid' hagrees⟩

theorem agrees_of_stdout_ofTokens_eq_comments :
    let source := Utf8.encode "a ; b\n|"
    let other := Utf8.encode "a ; c\n|"
    (ofTokens 0 "f" source).stdout = "1:1: (1 a)\n2:1: (2 '|')\n2:2: (2 $)\n" ∧ scan source = scan other ∧
      List.Forall₂ Token.Agrees (scan [0x61, 0xff]) (scan [0x61, 0xfe]) := by
  intro source other
  have hsame : (ofTokens 0 "f" source).stdout = (ofTokens 2 "g" other).stdout := by decide +kernel
  have hinvalid : (ofTokens 0 "f" [0x61, 0xff]).stdout = (ofTokens 0 "f" [0x61, 0xfe]).stdout := by decide +kernel
  obtain ⟨_, hscan⟩ := (agrees_of_stdout_ofTokens_eq 0 2 "f" "g" source other).2 hsame
  refine ⟨by decide +kernel, hscan (by decide +kernel) (by decide +kernel), ?_⟩
  exact ((agrees_of_stdout_ofTokens_eq 0 0 "f" "f" [0x61, 0xff] [0x61, 0xfe]).2 hinvalid).1

end CommandLine.Outcome

end GrammarCheck
