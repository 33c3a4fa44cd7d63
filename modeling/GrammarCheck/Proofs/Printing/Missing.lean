import GrammarCheck.Proofs.Printing.Origin
import GrammarCheck.Proofs.Printing.RoundTrip

/-!
# How missing terms print

A missing term prints as a word with an angle bracket in it, which no name or literal can have. What is
printed has no comment that could hide the bracket, so that it is scanned as part of an unknown token.
-/

namespace GrammarCheck

/-- The angle bracket that the text of a missing term begins with. -/
def angleBracket : UInt8 := 0x3c

/-! ### Words -/

theorem Kind.ofWord_eq_unknown_of_angleBracket_mem {bytes : List UInt8} (hmem : angleBracket ∈ bytes) :
    Kind.ofWord bytes = .unknown := by
  rw [Kind.ofWord]
  cases hdecode : Utf8.decode? bytes with
  | none => rfl
  | some text =>
    rw [(Utf8.decode?_eq_some_iff bytes text).1 hdecode] at hmem
    have hchar : '<' ∈ text.toList :=
      Utf8.mem_toList_of_mem_encode (show angleBracket.toNat < 0x80 by decide) hmem
    exact Kind.ofCharacters_eq_unknown_of_mem hchar (by decide +kernel)

section Source

variable {source : List UInt8}

theorem Piece.Occurs.exists_mem_scan {piece : Piece} (hoccurs : piece.Occurs source) :
    ∃ index, piece.token source index ∈ scan source := by
  obtain ⟨pieces, _, hpieces, htokens⟩ := (Scanner.stands_start source).tokens rfl
  have hpiece : piece ∈ ((pieces ++ [Piece.endOfInput source]).zipIdx 0).map Prod.fst := by
    rw [List.zipIdx_map_fst]
    exact List.mem_append_left _ ((hpieces piece).2 ⟨hoccurs, Nat.zero_le _⟩)
  obtain ⟨⟨_, index⟩, hpair, rfl⟩ := List.mem_map.1 hpiece
  refine ⟨index, ?_⟩
  rw [scan, htokens]
  exact List.mem_map.2 ⟨_, hpair, rfl⟩

/-- In a source without comments, an angle bracket is part of an unknown token. -/
theorem exists_unknown_of_angleBracket_mem (hmarker : commentMarker ∉ source) (hmem : angleBracket ∈ source) :
    ∃ token ∈ scan source, token.kind = .unknown := by
  obtain ⟨offset, hat⟩ := List.mem_iff_getElem?.1 hmem
  have huncommented : ¬Commented source offset := by
    intro ⟨_, marker, _, hat, _⟩
    exact hmarker (List.mem_of_getElem? hat)
  obtain ⟨start, stop, hrun, hstart, hstop⟩ := exists_run (plain_of_isDelimiter_eq_false hat rfl huncommented)
  have hword : angleBracket ∈ (source.drop start).take (stop - start) := by
    apply List.mem_iff_getElem?.2
    refine ⟨offset - start, ?_⟩
    rw [List.getElem?_take_of_lt (by omega), List.getElem?_drop, Nat.add_sub_cancel' hstart, hat]
  obtain ⟨index, htoken⟩ := (Piece.Occurs.word hrun (isWordKind_ofWord _)).exists_mem_scan
  exact ⟨_, htoken, Kind.ofWord_eq_unknown_of_angleBracket_mem hword⟩

end Source

/-! ### What is printed -/

theorem Token.IsScanned.commentMarker_not_mem {token : Token} (hscanned : token.IsScanned)
    (hkind : token.kind = .nonTerminal ∨ token.kind = .terminal) : commentMarker ∉ Utf8.encode token.spelling := by
  have hword := hscanned.isWord hkind
  obtain ⟨_, hplain, _⟩ := hword.plain
  rw [spelling, hword.encode_decodeLossy hkind]
  intro hmem
  exact absurd (hplain commentMarker hmem) (by decide)

namespace Expression

theorem render_alternative (branches : List Expression) :
    (Expression.alternative branches).render = " | ".intercalate (branches.map render) := by
  rw [render, renderAll_eq_map]

theorem render_sequence (terms : List Expression) :
    (Expression.sequence terms).render = " ".intercalate (terms.map render) := by
  rw [render, renderAll_eq_map]

theorem render_enclosed (bracket : Bracket) (opening : Token) (body : Expression) :
    (Expression.enclosed bracket opening body).render = renderEnclosed bracket body.render := by
  rw [render]

variable {leaves : Leaves} {level : Level} {expression part : Expression}

theorem Shaped.commentMarker_not_mem (hshaped : expression.Shaped (.scanned True) level) :
    commentMarker ∉ Utf8.encode expression.render := by
  induction hshaped with
  | name htoken => exact htoken.2.commentMarker_not_mem (.inl htoken.1)
  | literal htoken => exact htoken.2.commentMarker_not_mem (.inr htoken.1)
  | @enclosed level bracket opening body _ _ ih =>
    rw [render_enclosed, encode_renderEnclosed, List.mem_append, List.mem_append, List.mem_append]
    cases bracket <;> simp only [ih, false_or] <;> decide
  | malformed _ _ =>
    rw [render]
    decide
  | sequence _ _ _ ih =>
    rw [render_sequence]
    exact Utf8.not_mem_encode_intercalate (by decide) (List.forall_mem_map.2 ih)
  | alternative _ _ ih =>
    rw [render_alternative]
    exact Utf8.not_mem_encode_intercalate (by decide) (List.forall_mem_map.2 ih)

/-- What is printed for a part is printed for the whole. -/
theorem Shaped.encode_render_subset (hshaped : expression.Shaped leaves level) (hpart : part ∈ expression.parts) :
    Utf8.encode part.render ⊆ Utf8.encode expression.render := by
  induction hshaped with
  | name _ =>
    obtain rfl := List.mem_singleton.1 hpart
    exact List.Subset.refl _
  | literal _ =>
    obtain rfl := List.mem_singleton.1 hpart
    exact List.Subset.refl _
  | @enclosed level bracket opening body _ _ ih =>
    rcases mem_parts_enclosed.1 hpart with rfl | hinside
    · exact List.Subset.refl _
    · rw [render_enclosed, encode_renderEnclosed]
      exact List.subset_append_of_subset_left _ (List.subset_append_of_subset_right _
        (List.subset_append_of_subset_left _ (ih hinside)))
  | malformed _ _ =>
    obtain rfl := List.mem_singleton.1 hpart
    exact List.Subset.refl _
  | @sequence level terms _ _ _ ih =>
    rcases mem_parts_sequence.1 hpart with rfl | ⟨term, hterm, hinside⟩
    · exact List.Subset.refl _
    · rw [render_sequence]
      exact List.Subset.trans (ih term hterm hinside) (Utf8.encode_subset_intercalate _ (List.mem_map_of_mem hterm))
  | @alternative branches _ _ ih =>
    rcases mem_parts_alternative.1 hpart with rfl | ⟨branch, hbranch, hinside⟩
    · exact List.Subset.refl _
    · rw [render_alternative]
      exact List.Subset.trans (ih branch hbranch hinside) (Utf8.encode_subset_intercalate _ (List.mem_map_of_mem hbranch))

end Expression

namespace Production

theorem encode_render_some (name : Token) (expression : Expression) :
    Utf8.encode (Production.mk name (some expression)).render =
      Utf8.encode name.spelling ++ Utf8.encode " = " ++ Utf8.encode expression.render ++ Utf8.encode " ." := by
  rw [← Utf8.encode_append, ← Utf8.encode_append, ← Utf8.encode_append]
  rfl

theorem encode_render_none (name : Token) :
    Utf8.encode (Production.mk name none).render = Utf8.encode name.spelling ++ Utf8.encode " = ." := by
  rw [← Utf8.encode_append]
  rfl

variable {production : Production}

theorem Shaped.commentMarker_not_mem (hkind : production.name.kind = .nonTerminal)
    (hshaped : production.Shaped (.scanned True)) : commentMarker ∉ Utf8.encode production.render := by
  have hname := hshaped.heading.commentMarker_not_mem (.inl hkind)
  obtain ⟨name, expression⟩ := production
  cases expression with
  | none =>
    rw [encode_render_none, List.mem_append]
    exact not_or.2 ⟨hname, by decide⟩
  | some expression =>
    have hexpression := (hshaped.expression expression rfl).commentMarker_not_mem
    rw [encode_render_some, List.mem_append, List.mem_append, List.mem_append]
    exact not_or.2 ⟨not_or.2 ⟨not_or.2 ⟨hname, by decide⟩, hexpression⟩, by decide⟩

theorem Shaped.angleBracket_mem {leaves : Expression.Leaves} (hshaped : production.Shaped leaves)
    {found : Token} {problem : Diagnostic} (hmissing : .malformed found problem ∈ production.parts) :
    angleBracket ∈ Utf8.encode production.render := by
  obtain ⟨name, expression⟩ := production
  cases expression with
  | none => contradiction
  | some expression =>
    have hsubset := (hshaped.expression expression rfl).encode_render_subset hmissing
    have hbracket : angleBracket ∈ Utf8.encode (Expression.malformed found problem).render := by
      rw [Expression.render]
      decide
    rw [encode_render_some]
    exact List.mem_append_left _ (List.mem_append_right _ (hsubset hbracket))

end Production

/-- A printed grammar with a missing term has an unknown token. -/
theorem Reading.exists_unknown_of_malformed_mem {source : List UInt8} {production : Production}
    (hmem : production ∈ (ofSource source).grammar.productions) {found : Token} {problem : Diagnostic}
    (hmissing : .malformed found problem ∈ production.parts) :
    ∃ token ∈ scan (Utf8.encode (ofSource source).grammar.render), token.kind = .unknown := by
  have hlines := (ofSource source).grammar.encode_render
  apply exists_unknown_of_angleBracket_mem
  · rw [hlines, List.mem_flatMap]
    intro ⟨other, hother, hmarker⟩
    obtain ⟨hkind, hshaped⟩ := shaped_of_mem_productions hother
    rw [Utf8.encode_append, List.mem_append] at hmarker
    exact hmarker.elim (hshaped.commentMarker_not_mem hkind) (by decide)
  · rw [hlines, List.mem_flatMap]
    refine ⟨production, hmem, ?_⟩
    rw [Utf8.encode_append]
    exact List.mem_append_left _ ((shaped_of_mem_productions hmem).2.angleBracket_mem hmissing)

end GrammarCheck
