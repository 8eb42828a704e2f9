import MediaRange.Proofs.Stylesheet.Brackets
import MediaRange.Stylesheet.Basic

/-!
# Rewritten preludes

Without custom values, rewriting a stylesheet puts queries in the place of the ranges in its
preludes. `process_css` describes the new text piece by piece, and `Scans.rewritten` shows that the
scanner finds the new pieces in it, if every query leaves the scanner where its range did.
-/

namespace MediaRange

open Unicode

/-! ### New texts -/

/-- The new text of a fragment: a group that spells a range gives way to its query. -/
def Fragment.rewritten (settings : Settings) (f : Fragment) : List Char :=
  (replaceGroup reading? settings f).flatMap Fragment.text

section

variable {settings : Settings}

theorem rewritten_of_unread {inside : List Char} (h : reading? inside = none) :
    (Fragment.group inside).rewritten settings = (Fragment.group inside).text := by
  rw [Fragment.rewritten, replaceGroup, h, List.flatMap_singleton]

theorem rewritten_of_spells {inside : List Char} {r : Reading} (h : Spells inside r) :
    (Fragment.group inside).rewritten settings = r.query settings := by
  rw [Fragment.rewritten, replaceGroup, reading?_eq_some_iff.mpr h]
  exact Reading.text_fragments settings r

theorem flatMap_rewritten_plain (u : List Char) :
    (u.map Fragment.plain).flatMap (Fragment.rewritten settings) = u := by
  induction u with
  | nil => rfl
  | cons c u ih =>
    rw [List.map_cons, List.flatMap_cons, ih]
    rfl

theorem flatMap_rewritten_of_no_rewrites {fs : List Fragment} (h : groupRewrites settings fs = []) :
    fs.flatMap (Fragment.rewritten settings) = fs.flatMap Fragment.text := by
  have unspelt : ∀ inside r, .group inside ∈ fs → ¬Spells inside r := by
    intro inside r hmem hspells
    exact (groupRewrites_ne_nil_iff settings fs).mpr ⟨inside, r, hmem, hspells⟩ h
  rw [List.flatMap_def, List.flatMap_def]
  refine congrArg List.flatten (List.map_congr_left ?_)
  intro f hf
  cases f with
  | plain c => rfl
  | group inside =>
    cases hr : reading? inside with
    | none => exact rewritten_of_unread hr
    | some r => exact absurd (reading?_eq_some_iff.mp hr) (unspelt inside r hf)

/-- Queries are in parentheses as ranges are. -/
theorem head_rewritten (fs : List Fragment) :
    (fs.flatMap (Fragment.rewritten settings)).head? = (fs.flatMap Fragment.text).head? := by
  cases fs with
  | nil => rfl
  | cons f fs =>
    rw [List.flatMap_cons, List.flatMap_cons]
    cases f with
    | plain c => rfl
    | group inside =>
      cases hr : reading? inside with
      | none =>
        rw [rewritten_of_unread hr]
        rfl
      | some r =>
        rw [rewritten_of_spells (reading?_eq_some_iff.mp hr)]
        cases r <;> rfl

theorem getLast_group (inside : List Char) : (Fragment.group inside).text.getLast? = some ')' := by
  rw [Fragment.text, ← List.cons_append, List.getLast?_concat]

theorem getLast_rewritten (fs : List Fragment) :
    (fs.flatMap (Fragment.rewritten settings)).getLast? = (fs.flatMap Fragment.text).getLast? := by
  rcases List.eq_nil_or_concat fs with rfl | ⟨fs, f, rfl⟩
  · rfl
  · have last : (f.rewritten settings).getLast? = f.text.getLast? := by
      cases f with
      | plain c => rfl
      | group inside =>
        cases hr : reading? inside with
        | none => rw [rewritten_of_unread hr]
        | some r =>
          rw [rewritten_of_spells (reading?_eq_some_iff.mp hr), getLast_group]
          cases r with
          | single e => rw [Reading.query, query_eq, getLast_group]
          | double d =>
            rw [Reading.query, DoubleRange.query, query_eq _ d.upper, List.getLast?_append,
              getLast_group, Option.some_or]
    have some_ : f.text.getLast?.isSome = true := by
      cases f with
      | plain c => rfl
      | group inside =>
        rw [getLast_group]
        rfl
    obtain ⟨c, hc⟩ := Option.isSome_iff_exists.mp some_
    rw [List.concat_eq_append, List.flatMap_append, List.flatMap_append, List.flatMap_singleton,
      List.flatMap_singleton, List.getLast?_append, List.getLast?_append, last, hc, Option.some_or,
      Option.some_or]

end

theorem Spells.exists_sign {inside : List Char} {r : Reading} (h : Spells inside r) :
    '<' ∈ inside ∨ '>' ∈ inside := by
  have either (s : Comparison) (hs : s.symbol ∈ inside) : '<' ∈ inside ∨ '>' ∈ inside := by
    cases s with
    | less => exact .inl hs
    | greater => exact .inr hs
  cases h with
  | @single name value e hname hvalue token => exact either e.comparison (by simp [signText])
  | @double left name right d hleft leftToken hname hright rightToken =>
    exact either d.comparison (by simp [signText])

section

variable (useCalc : Bool)

theorem paramsOr_rewriteParams (params : List Char) :
    ((plainEngine useCalc).rewriteParams params).value.paramsOr params =
      (fragments params).flatMap (Fragment.rewritten ⟨none, useCalc⟩) := by
  by_cases none : groupRewrites ⟨.none, useCalc⟩ (fragments params) = []
  · rw [flatMap_rewritten_of_no_rewrites none, flatMap_text_fragments]
    rcases rewriteParams_of_no_rewrites none with skipped | unchanged
    · rw [skipped]
      rfl
    · rw [unchanged]
      rfl
  · have sign : '<' ∈ params ∨ '>' ∈ params := by
      obtain ⟨before, inside, r, after, hspells, rfl⟩ :=
        (groupRewrites_fragments_ne_nil_iff _ params).mp none
      rcases hspells.exists_sign with less | greater
      · simp [Fragment.text, less]
      · simp [Fragment.text, greater]
    rw [rewriteParams_eq useCalc sign, if_neg (by simpa using none)]
    rfl

theorem rewriteParams_rewritten (params : List Char) :
    ((plainEngine useCalc).rewriteParams
        ((fragments params).flatMap (Fragment.rewritten ⟨none, useCalc⟩))).value = .skipped ∨
      ((plainEngine useCalc).rewriteParams
        ((fragments params).flatMap (Fragment.rewritten ⟨none, useCalc⟩))).value = .unchanged := by
  apply rewriteParams_of_no_rewrites
  have tokens : ∀ inside r, reading? inside = some r → r.HasTokens := by
    intro inside r hr
    exact (reading?_eq_some_iff.mp hr).hasTokens
  have replacement : Replacement (replaceGroup reading? ⟨none, useCalc⟩) :=
    replacement_replaceGroup tokens
  have cut := fragments_replaced replacement params
  exact (congrArg _ cut).trans (groupRewrites_replaced useCalc (fragments params))

theorem isTrimmed_rewritten (settings : Settings) {params : List Char} (h : IsTrimmed params) :
    IsTrimmed ((fragments params).flatMap (Fragment.rewritten settings)) := by
  constructor
  · rw [head_rewritten, flatMap_text_fragments]
    exact h.first
  · rw [getLast_rewritten, flatMap_text_fragments]
    exact h.last

/-! ### New preludes -/

/-- The fragments of a prelude: those of its parameters and the blanks around them. -/
def preludeFragments (raw : List Char) : List Fragment :=
  (leadingBlanks raw).map .plain ++
    (fragments (trim raw) ++ (trailingBlanks (trimLeft raw)).map .plain)

def rewrittenPrelude (settings : Settings) (raw : List Char) : List Char :=
  (preludeFragments raw).flatMap (Fragment.rewritten settings)

theorem preludeFragments_text (raw : List Char) :
    (preludeFragments raw).flatMap Fragment.text = raw := by
  have plain (u : List Char) : (u.map Fragment.plain).flatMap Fragment.text = u := by
    simp [List.flatMap_map, Fragment.text]
  rw [preludeFragments, List.flatMap_append, List.flatMap_append, plain, plain,
    flatMap_text_fragments, leading_append_trim_append_trailing]

theorem rewrittenPrelude_eq (settings : Settings) (raw : List Char) :
    rewrittenPrelude settings raw = leadingBlanks raw ++
      ((fragments (trim raw)).flatMap (Fragment.rewritten settings) ++
        trailingBlanks (trimLeft raw)) := by
  rw [rewrittenPrelude, preludeFragments, List.flatMap_append, List.flatMap_append,
    flatMap_rewritten_plain, flatMap_rewritten_plain]

theorem trim_rewrittenPrelude (settings : Settings) (raw : List Char) :
    trim (rewrittenPrelude settings raw) =
      (fragments (trim raw)).flatMap (Fragment.rewritten settings) := by
  rw [rewrittenPrelude_eq]
  exact trim_padded (isBlankText_leadingBlanks raw) (isTrimmed_rewritten _ (isTrimmed_trim raw))
    (isBlankText_trailingBlanks _)

namespace Stylesheet

theorem css_processPiece {name : List Char} (media : isMediaRule name = true) (line : Nat)
    (raw : List Char) :
    (processPiece (plainEngine useCalc) line (.prelude name raw)).value.css =
      rewrittenPrelude ⟨none, useCalc⟩ raw := by
  have parts := leading_append_trim_append_trailing raw
  have outcome := paramsOr_rewriteParams useCalc (trim raw)
  rw [rewrittenPrelude_eq, ← outcome]
  by_cases empty : (trim raw).isEmpty = true
  · have blank : trim raw = [] := List.isEmpty_iff.mp empty
    have same : (processPiece (plainEngine useCalc) line (.prelude name raw)).value.css = raw := by
      simp only [processPiece, if_pos empty]
    have nothing : ((plainEngine useCalc).rewriteParams (trim raw)).value.paramsOr (trim raw) = [] := by
      rw [outcome, blank]
      rfl
    rw [same, nothing]
    rw [blank] at parts
    exact parts.symm
  · simp only [processPiece, if_neg empty, Engine.rewriteRule, media, if_true]
    cases ((plainEngine useCalc).rewriteParams (trim raw)).value with
    | skipped => exact parts.symm
    | unchanged => exact parts.symm
    | rewritten after rewrites => exact List.append_assoc _ _ _

theorem processPiece_rewritten (name : List Char) (line : Nat) (raw : List Char) :
    (processPiece (plainEngine useCalc) line
        (.prelude name (rewrittenPrelude ⟨none, useCalc⟩ raw))).value =
      ⟨rewrittenPrelude ⟨none, useCalc⟩ raw, []⟩ := by
  have settled := rewriteParams_rewritten useCalc (trim raw)
  rw [← trim_rewrittenPrelude] at settled
  generalize rewrittenPrelude ⟨none, useCalc⟩ raw = new at settled ⊢
  have unchanged (after : List Char) (rewrites : List Rewrite) :
      ((plainEngine useCalc).rewriteRule ⟨name, trim new⟩).value ≠ .rewritten after rewrites := by
    unfold Engine.rewriteRule
    split
    · rcases settled with settled | settled
      · simp [settled]
      · simp [settled]
    · simp
  simp only [processPiece]
  split
  · rfl
  · rfl

end Stylesheet

end

/-! ### New pieces -/

def Piece.rewritten (settings : Settings) : Piece → Piece
  | .verbatim c => .verbatim c
  | .prelude name raw => .prelude name (rewrittenPrelude settings raw)

def rewrittenText (settings : Settings) (ps : List Piece) : List Char :=
  (ps.map (Piece.rewritten settings)).flatMap Piece.text

namespace Stylesheet

variable (useCalc : Bool)

theorem css_processPieces {s : Scanner} {text : List Char} {ps : List Piece}
    (h : s.Scans text ps) (line : Nat) :
    (processPieces (plainEngine useCalc) line ps).value.css = rewrittenText ⟨none, useCalc⟩ ps := by
  induction h generalizing line with
  | done hfinish => rfl
  | @verbatim s next c text ps hstep hlexing _ ih =>
    unfold processPieces
    dsimp only
    rw [ih]
    rfl
  | @prelude read raw rest before ps hmedia hfirst hcut _ ih =>
    unfold processPieces
    dsimp only
    rw [ih, css_processPiece useCalc hmedia]
    rfl

theorem css_process (css : List Char) :
    (process (plainEngine useCalc) css).value.css =
      rewrittenText ⟨none, useCalc⟩ (Scanner.pieces {} css) :=
  css_processPieces useCalc (Scanner.scans_iff.mpr rfl) 1

theorem processPieces_rewritten (line : Nat) (ps : List Piece) :
    (processPieces (plainEngine useCalc) line (ps.map (Piece.rewritten ⟨none, useCalc⟩))).value =
      ⟨rewrittenText ⟨none, useCalc⟩ ps, []⟩ := by
  induction ps generalizing line with
  | nil => rfl
  | cons p ps ih =>
    have first (line : Nat) :
        (processPiece (plainEngine useCalc) line (p.rewritten ⟨none, useCalc⟩)).value =
          ⟨(p.rewritten ⟨none, useCalc⟩).text, []⟩ := by
      cases p with
      | verbatim c => rfl
      | prelude name raw => exact processPiece_rewritten useCalc name line raw
    rw [List.map_cons]
    unfold processPieces
    dsimp only
    rw [ih, first]
    rfl

end Stylesheet

/-! ### The scanner on new texts -/

/-- Every query leaves the scanner where its range left it. -/
def KeepsLexing (settings : Settings) (lexing : Lexing) (text : List Char) : Prop :=
  ∀ front inside rest r, text = front ++ ((Fragment.group inside).text ++ rest) →
    Spells inside r →
      (lexing.run front).run (r.query settings) = (lexing.run front).run (Fragment.group inside).text

section

variable {settings : Settings} {lexing : Lexing}

theorem KeepsLexing.of_append {u v : List Char} (h : KeepsLexing settings lexing (u ++ v)) :
    KeepsLexing settings (lexing.run u) v := by
  intro front inside rest r split hspells
  have whole := h (u ++ front) inside rest r (by rw [split, List.append_assoc]) hspells
  rwa [Lexing.run_append] at whole

theorem KeepsLexing.run_fragment {f : Fragment} {v : List Char}
    (h : KeepsLexing settings lexing (f.text ++ v)) :
    lexing.run (f.rewritten settings) = lexing.run f.text := by
  cases f with
  | plain c => rfl
  | group inside =>
    cases hr : reading? inside with
    | none => rw [rewritten_of_unread hr]
    | some r =>
      have hspells := reading?_eq_some_iff.mp hr
      rw [rewritten_of_spells hspells]
      exact h [] inside v r rfl hspells

theorem KeepsLexing.run_rewritten {fs : List Fragment}
    (h : KeepsLexing settings lexing (fs.flatMap Fragment.text)) :
    lexing.run (fs.flatMap (Fragment.rewritten settings)) = lexing.run (fs.flatMap Fragment.text) := by
  induction fs generalizing lexing with
  | nil => rfl
  | cons f fs ih =>
    rw [List.flatMap_cons] at h ⊢
    rw [Lexing.run_append, h.run_fragment, ih h.of_append, List.flatMap_cons, Lexing.run_append]

end

theorem cutPrelude_query {inside : List Char} {r : Reading} (h : Spells inside r) (useCalc : Bool)
    (lexing : Lexing) :
    lexing.cutPrelude (r.query ⟨none, useCalc⟩) = (r.query ⟨none, useCalc⟩, []) := by
  obtain ⟨u, same, hu⟩ := Reading.query_eq_brackets useCalc h.hasTokens
  rw [same]
  exact lexing.cutPrelude_calm (isCalm_brackets hu)

theorem cutPrelude_rewritten {useCalc : Bool} {lexing : Lexing} {fs : List Fragment}
    (keeps : KeepsLexing ⟨none, useCalc⟩ lexing (fs.flatMap Fragment.text))
    (h : lexing.cutPrelude (fs.flatMap Fragment.text) = (fs.flatMap Fragment.text, [])) :
    lexing.cutPrelude (fs.flatMap (Fragment.rewritten ⟨none, useCalc⟩)) =
      (fs.flatMap (Fragment.rewritten ⟨none, useCalc⟩), []) := by
  induction fs generalizing lexing with
  | nil => rfl
  | cons f fs ih =>
    rw [List.flatMap_cons] at keeps h ⊢
    obtain ⟨first, later⟩ := Lexing.cutPrelude_append_iff.mp h
    refine Lexing.cutPrelude_append_iff.mpr ⟨?_, ?_⟩
    · cases f with
      | plain c => exact first
      | group inside =>
        cases hr : reading? inside with
        | none => rwa [rewritten_of_unread hr]
        | some r =>
          have hspells := reading?_eq_some_iff.mp hr
          rw [rewritten_of_spells hspells]
          exact cutPrelude_query hspells useCalc lexing
    · rw [keeps.run_fragment]
      exact ih keeps.of_append later

/-- The scanner finds the new pieces in the new text. -/
theorem Scanner.Scans.rewritten {useCalc : Bool} {s : Scanner} {text : List Char} {ps : List Piece}
    (h : s.Scans text ps)
    (keeps : ∀ name raw, .prelude name raw ∈ ps → KeepsLexing ⟨none, useCalc⟩ .plain raw) :
    s.Scans (rewrittenText ⟨none, useCalc⟩ ps) (ps.map (Piece.rewritten ⟨none, useCalc⟩)) := by
  induction h with
  | done hfinish => exact .done hfinish
  | verbatim hstep hlexing _ ih =>
    have keeps := fun name raw h => keeps name raw (List.mem_cons_of_mem _ h)
    exact .verbatim hstep hlexing (ih keeps)
  | @prelude read raw rest before ps hmedia hfirst hcut h ih =>
    have here := keeps read.reverse raw List.mem_cons_self
    have keeps := fun name raw h => keeps name raw (List.mem_cons_of_mem _ h)
    rw [← preludeFragments_text raw] at here
    obtain ⟨within, atEnd⟩ := Lexing.cutPrelude_eq_iff.mp hcut
    have run : Lexing.plain.run (rewrittenPrelude ⟨none, useCalc⟩ raw) = Lexing.plain.run raw := by
      rw [rewrittenPrelude, here.run_rewritten, preludeFragments_text]
    have within : Lexing.plain.cutPrelude (rewrittenPrelude ⟨none, useCalc⟩ raw) =
        (rewrittenPrelude ⟨none, useCalc⟩ raw, []) := by
      rw [← preludeFragments_text raw] at within
      exact cutPrelude_rewritten here within
    -- What ends the prelude is the first character of a verbatim piece, and so it stays.
    have headRest : rest.head? = (rewrittenText ⟨none, useCalc⟩ ps).head? := by
      cases h with
      | done hfinish => rfl
      | verbatim hstep hlexing h => rfl
    have headRaw : raw.head? = (rewrittenPrelude ⟨none, useCalc⟩ raw).head? := by
      rw [rewrittenPrelude, head_rewritten, preludeFragments_text]
    have next := ih keeps
    rw [← run] at next atEnd
    have cut := Lexing.cutPrelude_eq_iff.mpr ⟨within, Lexing.cutPrelude_nil_of_head headRest atEnd⟩
    have first : ∃ c more, rewrittenPrelude ⟨none, useCalc⟩ raw ++ rewrittenText ⟨none, useCalc⟩ ps =
        c :: more ∧ isNameCharacter c = false := by
      obtain ⟨c, more, split, notName⟩ := hfirst
      have head := congrArg List.head? split
      rw [List.head?_append, headRest, headRaw, ← List.head?_append, List.head?_cons,
        List.head?_eq_some_iff] at head
      obtain ⟨more, split⟩ := head
      exact ⟨c, more, split, notName⟩
    exact .prelude hmedia first cut next

end MediaRange
