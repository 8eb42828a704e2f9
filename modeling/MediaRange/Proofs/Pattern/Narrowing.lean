import MediaRange.Proofs.Pattern.Flags

/-!
# Narrower patterns

The flags for lines widen a pattern: a dot takes line feeds too, and the ends of lines count as ends
of the text. `narrower_of_read?` compares the readings of a text with fewer and with more of them.
-/

namespace MediaRange

inductive Look.Narrower : Look → Look → Prop where
  | refl (l : Look) : Narrower l l
  | start : Narrower .textStart .lineStart
  | stop : Narrower .textEnd .lineEnd

namespace Pattern

/-- The same shape with narrower sets and conditions, and only with marks of the given names. -/
inductive Narrower (names : List String) : Pattern → Pattern → Prop where
  | empty : Narrower names .empty .empty
  | one {s t : CharSet} (h : ∀ c, s.has c = true → t.has c = true) :
      Narrower names (.one s) (.one t)
  | look {l m : Look} (h : l.Narrower m) : Narrower names (.look l) (.look m)
  | opening {name : String} (h : name ∈ names) :
      Narrower names (.mark (.opening name)) (.mark (.opening name))
  | closing {name : String} (h : name ∈ names) :
      Narrower names (.mark (.closing name)) (.mark (.closing name))
  | seq {p q p' q' : Pattern} (hp : Narrower names p p') (hq : Narrower names q q') :
      Narrower names (.seq p q) (.seq p' q')
  | alt {p q p' q' : Pattern} (hp : Narrower names p p') (hq : Narrower names q q') :
      Narrower names (.alt p q) (.alt p' q')
  | opt (greedy : Bool) {p p' : Pattern} (h : Narrower names p p') :
      Narrower names (.opt greedy p) (.opt greedy p')
  | plus (greedy : Bool) {p p' : Pattern} (h : Narrower names p p') :
      Narrower names (.plus greedy p) (.plus greedy p')

namespace Narrower

variable {names : List String} {p q : Pattern}

theorem mono (name : String) (h : Narrower names p q) : Narrower (name :: names) p q := by
  induction h with
  | empty => exact .empty
  | one h => exact .one h
  | look h => exact .look h
  | opening h => exact .opening (List.mem_cons_of_mem _ h)
  | closing h => exact .closing (List.mem_cons_of_mem _ h)
  | seq _ _ ihp ihq => exact .seq ihp ihq
  | alt _ _ ihp ihq => exact .alt ihp ihq
  | opt greedy _ ih => exact .opt greedy ih
  | plus greedy _ ih => exact .plus greedy ih

theorem size_eq (h : Narrower names p q) : p.size = q.size := by
  induction h with
  | seq _ _ ihp ihq => simp [size, ihp, ihq]
  | alt _ _ ihp ihq => simp [size, ihp, ihq]
  | opt greedy _ ih => simp [size, ih]
  | plus greedy _ ih => simp [size, ih]
  | _ => rfl

end Narrower

def narrowing : Likeness where
  letters := Eq
  lines b b' := b = true → b' = true
  pattern := Narrower
  classes := Eq
  mayFail := False
  letters_refl _ := rfl
  lines_refl _ := id
  mono name h := h.mono name
  size h := .inl h.size_eq
  empty _ := .empty
  one _ _ := .one fun _ => id
  look _ l := .look (.refl l)
  mark h := ⟨.opening h, .closing h⟩
  seq := .seq
  alt := .alt
  opt greedy h := .opt greedy h
  plus greedy h := .plus greedy h
  literal names c h := h ▸ .one fun _ => id
  dot {b b'} names h := by
    cases b with
    | true => simpa [h rfl] using .one fun _ => id
    | false =>
      cases b' with
      | true => exact .one fun _ _ => rfl
      | false => exact .one fun _ => id
  caret {b b'} names h := by
    cases b with
    | true => simpa [h rfl] using .look (.refl _)
    | false =>
      cases b' with
      | true => exact .look .start
      | false => exact .look (.refl _)
  dollar {b b'} names h := by
    cases b with
    | true => simpa [h rfl] using .look (.refl _)
    | false =>
      cases b' with
      | true => exact .look .stop
      | false => exact .look (.refl _)
  bracket := bracket_eq
  skipsBlanks h := congrArg _ h
  classMore hb hx h := exists_read_eq hb hx h
  classSet names hb hx h := ⟨_, hb ▸ hx ▸ h, .one fun _ => id, rfl⟩

theorem narrower_of_read? {f g : PatternFlags} (h : narrowing.Flags f g) {text : List Char}
    {r : Reader} {p q : Pattern} (hr : text.foldlM Reader.step { flags := f } = .ok r)
    (hp : r.finish = .ok p) (hq : read? g text = .ok q) : Narrower r.names p q := by
  obtain ⟨s, hs, hq⟩ := read?_eq_ok_iff.mp hq
  rcases (narrowing.alone_start h).run text r hr with ⟨s', hs', like⟩ | ⟨never, _⟩
  · obtain rfl := Except.ok.inj (hs.symm.trans hs')
    rcases like.finish rfl hp with ⟨q', hq', narrower⟩ | ⟨never, _⟩
    · exact Except.ok.inj (hq.symm.trans hq') ▸ narrower
    · exact never.elim
  · exact never.elim

end Pattern

end MediaRange
