import StructuredText.Proofs.Grammar.Swapped
import StructuredText.Proofs.Printing.Atoms

/-!
# Source forms that are read again

`Printed l ok ps R` says that the text `l` is cut into the pieces `ps` in front of each delimiter that `ok` allows, and
that the tokens which these pieces make are a spelling by `R`. Text behind or in front of a printed one leaves it so if
it delimits it, and if the tokens of both are a spelling as well (`Printed.append`, `Printed.prepend`). Names and
literals are printed in their source form (`QualifiedName.printed`, `LiteralSpelled.printed`).
-/

namespace StructuredText

/-- The text begins like an expression and is cut into the pieces in front of what `ok` allows, and they are a spelling
by `R`. The one token that may not stand behind it is a colon, which makes a time of day of a number. -/
structure Printed (l : List Char) (ok : Behind → Bool) (ps : List Piece) (R : List Lexeme → List Lexeme → Prop) :
    Prop where
  starts : startsWith isExprStart l = true
  cut : ∀ {f}, Delimits f → ok (behind f) = true → Cut l ps f
  spelled : ∀ o {y}, headKind y ≠ .colon → R (placed o ps ++ y) y

section

variable {l t f : List Char} {ok ok' : Behind → Bool} {ps qs : List Piece} {R R' : List Lexeme → List Lexeme → Prop}

namespace Printed

theorem imp (h : Printed l ok ps R) (hok : ∀ {b}, ok' b = true → ok b = true) (hR : ∀ {x y}, R x y → R' x y) :
    Printed l ok' ps R' where
  starts := h.starts
  cut hf hb := h.cut hf (hok hb)
  spelled o _ hy := hR (h.spelled o hy)

/-- Text that delimits a printed one may stand behind it. -/
theorem append (h : Printed l ok ps R)
    (ht : ∀ {f}, Delimits f → ok' (behind f) = true → Delimits (t ++ f) ∧ ok (behind (t ++ f)) = true ∧ Cut t qs f)
    (hne : ∀ o y, headKind (placed o qs ++ y) ≠ .colon)
    (hR : ∀ {o x y}, headKind y ≠ .colon → R x (placed o qs ++ y) → R' x y) :
    Printed (l ++ t) ok' (ps ++ qs) R' where
  starts := startsWith_append h.starts t
  cut hf hb := by
    obtain ⟨hdelim, hok, ht⟩ := ht hf hb
    exact Cut.append (h.cut hdelim hok) ht
  spelled o y hy := by
    rw [placed_append, List.append_assoc]
    exact hR hy (h.spelled o (hne _ _))

/-- Text may stand in front of a printed one if it is cut in front of all that an expression begins with. -/
theorem prepend (h : Printed l ok ps R) (hstarts : startsWith isExprStart t = true)
    (ht : ∀ {f b}, ok' b = true → startsWith isExprStart f = true → ok b = true ∧ Cut t qs f)
    (hR : ∀ {o x y}, R x y → R' (placed o qs ++ x) y) : Printed (t ++ l) ok' (qs ++ ps) R' where
  starts := startsWith_append hstarts l
  cut {f} hf hb := by
    obtain ⟨hok, ht⟩ := ht hb (startsWith_append h.starts f)
    exact ht.append (h.cut hf hok)
  spelled o y hy := by
    rw [placed_append, List.append_assoc]
    exact hR (h.spelled _ hy)

/-- Text that delimits a printed one may stand between two of them. -/
theorem between {l' : List Char} {ok'' : Behind → Bool} {ps' : List Piece} {R'' : List Lexeme → List Lexeme → Prop}
    (h : Printed l ok ps R) (h' : Printed l' ok' ps' R')
    (ht : ∀ {f b}, ok'' b = true → startsWith isExprStart f = true →
      Delimits (t ++ f) ∧ ok (behind (t ++ f)) = true ∧ ok' b = true ∧ Cut t qs f)
    (hne : ∀ o y, headKind (placed o qs ++ y) ≠ .colon)
    (hR : ∀ {o x y z}, R x (placed o qs ++ y) → R' y z → R'' x z) :
    Printed (l ++ (t ++ l')) ok'' (ps ++ (qs ++ ps')) R'' := by
  refine h.append (fun {f} hf hb => ?_) (fun o y => ?_) fun {o x y} hy hx => ?_
  · obtain ⟨hdelim, hok, hok', hcut⟩ := ht hb (startsWith_append h'.starts f)
    rw [List.append_assoc]
    exact ⟨hdelim, hok, hcut.append (h'.cut hf hok')⟩
  · rw [placed_append, List.append_assoc]
    exact hne _ _
  · rw [placed_append, List.append_assoc] at hx
    exact hR hx (h'.spelled _ hy)

end Printed

end

/-! ## Single tokens -/

theorem placed_cons {p : Piece} (h : p.kind.isTrivia = false) (o : Nat) (ps : List Piece) :
    placed o (p :: ps) =
      ⟨p.kind, ⟨o, o + Text.byteLength p.lexeme⟩, String.ofList p.lexeme⟩ ::
        placed (o + Text.byteLength p.lexeme) ps := by
  rw [placed, h]
  rfl

theorem Lexed.scanned {t : Lexeme} {x : List Lexeme} (h : Lexed (t :: x)) (hdot : t.kind ≠ .dot)
    (hdotDot : t.kind ≠ .dotDot) : ∃ f, Scanned t.kind t.text.toList f := by
  cases h with
  | cons ht _ =>
    obtain ⟨f, hf, -⟩ := ht hdot hdotDot
    exact ⟨f, hf⟩

theorem Lexed.tail {t : Lexeme} {x : List Lexeme} (h : Lexed (t :: x)) : Lexed x := by
  cases h with
  | cons _ h => exact h

theorem Lexed.scanned_of_eq {t : Lexeme} {x : List Lexeme} {k : TokenKind} (h : Lexed (t :: x)) (hk : t.kind = k)
    (hdot : k ≠ .dot) (hdotDot : k ≠ .dotDot) : ∃ f, Scanned k t.text.toList f := by
  subst hk
  exact h.scanned hdot hdotDot

theorem Scanned.startsWith_isWordStart {k : TokenKind} {l f : List Char} (h : Scanned k l f) (hk : k.isWordy = true) :
    startsWith isWordStart l = true := by
  rcases h.word_cases hk with ⟨hw, -⟩ | ⟨w, v, rfl, hw, -⟩
  · exact hw.start
  · have hstart := hw.start
    cases w with
    | nil => cases hstart
    | cons c w => exact hstart

/-! ## Names -/

theorem nameEnding_of_not_mem {l : List Char} (h : '#' ∉ l) : nameEnding l = .closed := by
  rw [nameEnding, afterLastHash?_eq_none h]

/-- A qualified name is printed, and it holds no `#` in front of `::`. -/
theorem QualifiedName.printed {name : Name} {x y : List Lexeme} (h : QualifiedName name x y) (hx : Lexed x) :
    (∃ ps, Printed name.text.toList name.ending.allows ps fun x y =>
      ∃ n : Name, n.text = name.text ∧ QualifiedName n x y) ∧
    (headKind y = .colonColon → '#' ∉ name.text.toList) := by
  have hhash {l : List Char} (hl : IsWord l) : '#' ∉ l := fun h => by cases hl.part _ h
  have hnext {t : Lexeme} {y : List Lexeme} (h : Lexed (t :: y)) (ht : t.kind = .ident)
      (hy : headKind y = .colonColon) : '#' ∉ t.text.toList := by
    cases y with
    | nil => cases hy
    | cons u y => exact hhash (h.isWord ht hy)
  induction h with
  | @one t y ht =>
    obtain ⟨f, hs⟩ := hx.scanned_of_eq ht nofun nofun
    refine ⟨⟨[⟨.ident, t.text.toList⟩], ?_, fun hf hend => (hs.name [] hf hend).cut nofun, fun o y _ => ?_⟩, ?_⟩
    · exact startsWith_mono (hs.startsWith_isWordStart rfl) fun _ => isExprStart_of_isWordStart
    · exact ⟨_, String.ofList_toList, .one rfl⟩
    · exact hnext hx ht
  | @more name c t x y h hc ht ih =>
    have hty : Lexed (t :: y) := hx.suffix ((List.suffix_cons c _).trans h.suffix)
    obtain ⟨⟨ps, hps⟩, hclosed⟩ := ih hx
    have hclosed := hclosed hc
    obtain ⟨f, hs⟩ := hty.scanned_of_eq ht nofun nofun
    have htext : (name.text ++ "::" ++ t.text).toList = name.text.toList ++ ([':', ':'] ++ t.text.toList) := by simp
    refine ⟨⟨ps ++ [⟨.colonColon, [':', ':']⟩, ⟨.ident, t.text.toList⟩], ?_⟩, fun hy => ?_⟩
    · rw [htext]
      refine hps.append (fun hf hend => ⟨.of_head (by decide) (by decide), ?_, ?_⟩) (fun _ _ => nofun) fun _ => ?_
      · rw [Name.ending, nameEnding_of_not_mem hclosed]
        rfl
      · rw [Name.ending, htext, ← List.append_assoc] at hend
        exact .cons (.two rfl rfl (by decide)) nofun ((hs.name _ hf hend).cut nofun)
      · rintro ⟨n, hn, hspelled⟩
        refine ⟨_, ?_, .more hspelled rfl rfl⟩
        rw [hn]
        simp
    · rw [htext]
      simp [hclosed, hnext hty ht hy]

/-! ## Literals -/

theorem isTrivia_of_ofToken? {kind : LiteralKind} {k : TokenKind} (h : LiteralKind.ofToken? k = some kind) :
    k.isTrivia = false := by
  cases k <;> first | rfl | cases h

/-- The value of a literal of one token is printed as that token. -/
theorem TokenPrinted.printed {kind : LiteralKind} {t : Lexeme} (h : TokenPrinted kind t)
    (hkind : LiteralKind.ofToken? t.kind = some kind) :
    Printed (Literal.ofToken kind t.name).render.toList (Literal.ofToken kind t.name).ending.allows
      [⟨t.kind, (Literal.ofToken kind t.name).render.toList⟩]
      fun x y => ∃ s, x = ⟨t.kind, s, (Literal.ofToken kind t.name).render⟩ :: y where
  starts := h.starts
  cut hf hend := (h.scanned hf hend).cut fun _ => hf.notThree
  spelled o y _ := by
    rw [placed_cons (isTrivia_of_ofToken? hkind)]
    exact ⟨_, by rw [String.ofList_toList]; rfl⟩

/-- The literal is spelled again, but for spans. -/
def Literal.Respelled (l : Literal) (x y : List Lexeme) : Prop :=
  ∃ l' : Literal, l'.plain = l.plain ∧ LiteralSpelled l' x y

/-- A time of day of five tokens is printed as they are. -/
theorem TimeOfDay.printed {h c m d s : Lexeme} {y : List Lexeme} (ht : TimeOfDay h c m d s)
    (hx : Lexed (h :: c :: m :: d :: s :: y)) {l : Literal} (hkind : l.kind = .timeOfDay) (hname : l.typeName = none)
    (hvalue : l.value = h.text ++ c.text ++ m.text ++ d.text ++ s.text) :
    ∃ ps, Printed l.render.toList l.ending.allows ps l.Respelled := by
  obtain ⟨_, hh⟩ := hx.scanned_of_eq ht.hours (by decide) (by decide)
  obtain ⟨_, hc⟩ := hx.tail.scanned_of_eq ht.colon (by decide) (by decide)
  obtain ⟨_, hm⟩ := hx.tail.tail.scanned_of_eq ht.minutes (by decide) (by decide)
  obtain ⟨_, hd⟩ := hx.tail.tail.tail.scanned_of_eq ht.colon' (by decide) (by decide)
  have hsk : s.kind.isNumber = true := by rcases ht.seconds with h | h <;> rw [h] <;> rfl
  obtain ⟨_, hs⟩ := hx.tail.tail.tail.tail.scanned (fun h => by rw [h] at hsk; cases hsk)
    (fun h => by rw [h] at hsk; cases hsk)
  have hc : c.text = ":" := String.toList_inj.1 (hc.eq_spelling rfl (by decide) (by simp))
  have hd : d.text = ":" := String.toList_inj.1 (hd.eq_spelling rfl (by decide) (by simp))
  have hmstart := hm.startsWith_isDigit rfl
  have hsstart := hs.startsWith_isDigit hsk
  have htext : l.render.toList =
      h.text.toList ++ ([':'] ++ (m.text.toList ++ ([':'] ++ s.text.toList))) := by
    have hrender : l.render = l.value := by simp [Literal.render, hname, Literal.renderValue, hkind]
    rw [hrender, hvalue]
    simp [hc, hd]
  refine ⟨[⟨.intLiteral, h.text.toList⟩, ⟨.colon, [':']⟩, ⟨.intLiteral, m.text.toList⟩, ⟨.colon, [':']⟩,
    ⟨s.kind, s.text.toList⟩], ?_, fun {f} hf hend => ?_, fun o y _ => ?_⟩
  · rw [htext]
    exact startsWith_append (startsWith_mono (hh.startsWith_isDigit rfl) fun c hc => by simp [isExprStart, hc]) _
  · have hend : s.kind = .intLiteral → s.text.toList.getLast? ≠ some '#' → behind f ≠ .fraction := by
      intro hint hlast
      rw [hint] at hs
      have hpoint : '.' ∉ l.value.toList := by
        rw [hvalue]
        simp [hc, hd, hh.point_not_mem, hm.point_not_mem, hs.point_not_mem]
      have hne : s.text.toList ≠ [] := by
        intro h
        rw [h] at hsstart
        cases hsstart
      have hending : l.ending = .number := by
        have hnumber : l.ending = numberEnding l.value.toList := by
          simp [Literal.ending, hkind, hname, hpoint]
        rw [hnumber, hvalue, String.toList_append, numberEnding_append _ hne]
        exact if_neg hlast
      rw [hending] at hend
      simpa [Ending.allows] using hend
    have hcolon {g : List Char} : Delimits (':' :: g) := .of_head (by decide) (by decide)
    have hother {g : List Char} : behind (':' :: g) ≠ .fraction := by
      rw [behind_of_ne (by decide)]
      simp
    rw [htext]
    refine .cons (hh.number_again rfl hcolon fun _ _ => hother) (fun _ => hcolon.notThree) ?_
    refine .cons (.colon (startsWith_append (startsWith_append hmstart _) _)) (by simp) ?_
    refine .cons (hm.number_again rfl hcolon fun _ _ => hother) (fun _ => hcolon.notThree) ?_
    refine .cons (.colon (startsWith_append hsstart _)) (by simp) ?_
    exact (hs.number_again hsk hf hend).cut fun _ => hf.notThree
  · have htrivia : s.kind.isTrivia = false := by rcases ht.seconds with h | h <;> rw [h] <;> rfl
    iterate 4 rw [placed_cons rfl]
    rw [placed_cons htrivia]
    refine ⟨_, ?_, .timeOfDay ⟨rfl, rfl, rfl, rfl, ht.seconds, rfl, rfl, rfl, rfl⟩⟩
    simp [Literal.plain, hkind, hname, hvalue, hc, hd]

/-! ## Literals behind a type name -/

/-- The types with a time or a date. -/
def LiteralType.isTemporal : LiteralType → Bool
  | duration | date | timeOfDay | dateAndTime => true
  | _ => false

theorem scanTyped_of_not_temporal {w : List Char}
    (h : ∀ type ∈ LiteralType.ofName? (String.ofList w), type.isTemporal = false) (cs : List Char) :
    scanTyped w cs = .stop .typedLiteralPrefix cs := by
  unfold scanTyped
  split
  · next ht => cases h _ ht
  · next ht => cases h _ ht
  · next ht => cases h _ ht
  · next ht => cases h _ ht
  · rfl

/-- The literals that stand behind no type name of their own. -/
def LiteralKind.isPlain : LiteralKind → Bool
  | duration | date | timeOfDay | dateAndTime => false
  | _ => true

/-- The literals whose values stand in source form as they are. -/
def LiteralKind.isRaw : LiteralKind → Bool
  | string | wideString => false
  | _ => true

theorem LiteralType.faultIn?_eq_none {type : LiteralType} {kind : LiteralKind} {signed : Bool}
    (h : type.faultIn? kind signed = none) :
    type.isTemporal = false ∧ kind.isPlain = true ∧ (signed = true → kind.isRaw = true) := by
  revert h
  cases type <;> cases kind <;> cases signed <;> decide

theorem LiteralFault.of?_eq_none {typeName : String} {kind : LiteralKind} {signed : Bool}
    (h : LiteralFault.of? typeName kind signed = none) :
    (∀ type ∈ LiteralType.ofName? typeName, type.isTemporal = false) ∧ kind.isPlain = true ∧
      (signed = true → kind.isRaw = true) := by
  unfold LiteralFault.of? at h
  split at h
  · next type htype =>
    have hfault := LiteralType.faultIn?_eq_none h
    refine ⟨fun type' h => ?_, hfault.2⟩
    rw [htype] at h
    cases h
    exact hfault.1
  · cases h

/-- A type name with its `#`. -/
theorem Scanned.withoutHash {t : String} {f : List Char} (h : Scanned .typedLiteralPrefix t.toList f) :
    ∃ w, IsWord w ∧ t.toList = w ++ ['#'] ∧ withoutHash t = String.ofList w := by
  obtain ⟨w, hw, hword⟩ := h.typeName
  refine ⟨w, hword, hw, ?_⟩
  have hhash : startsWith (· == '#') w.reverse = false := by
    cases hr : w.reverse with
    | nil => rfl
    | cons c cs =>
      have hc : c ∈ w := List.mem_reverse.1 (by rw [hr]; exact List.mem_cons_self)
      refine beq_eq_false_iff_ne.2 ?_
      rintro rfl
      cases hword.part _ hc
  have hdrop : ('#' :: w.reverse).dropWhile (· == '#') = w.reverse :=
    (takeWhile_append_of_not (w := ['#']) (by simp) hhash).2
  rw [StructuredText.withoutHash, hw, List.reverse_append, List.reverse_singleton, List.singleton_append, hdrop,
    List.reverse_reverse]

/-- The type name and the value of a literal, one behind the other. -/
theorem render_typed {kind : LiteralKind} {p v : Lexeme} {sign : String} {f : List Char}
    (hp : Scanned .typedLiteralPrefix p.text.toList f) (hplain : kind.isPlain = true)
    (hsign : sign = "" ∨ kind.isRaw = true) :
    (Literal.typed kind p sign v).render.toList =
      p.text.toList ++ (sign.toList ++ (Literal.ofToken kind v.name).render.toList) := by
  obtain ⟨w, -, hw, hname⟩ := hp.withoutHash
  have hvalue : (Literal.typed kind p sign v).renderValue.toList =
      sign.toList ++ (Literal.ofToken kind v.name).render.toList := by
    rcases hsign with rfl | hraw
    · cases kind <;> simp [LiteralKind.isPlain] at hplain <;>
        simp [Literal.typed, Literal.renderValue, Literal.ofToken, Literal.signedValue, Literal.render]
    · cases kind <;> simp [LiteralKind.isPlain] at hplain <;> simp [LiteralKind.isRaw] at hraw <;>
        simp [Literal.typed, Literal.renderValue, Literal.ofToken, Literal.signedValue, Literal.render]
  have hrender : (Literal.typed kind p sign v).render =
      withoutHash p.text ++ "#" ++ (Literal.typed kind p sign v).renderValue := rfl
  rw [hrender, String.toList_append, String.toList_append, hvalue, hname, hw, String.toList_ofList]
  rfl

/-- A literal behind a type name ends as its value does. -/
theorem ending_typed {kind : LiteralKind} {p v : Lexeme} {sign : String} (hplain : kind.isPlain = true)
    (hv : TokenPrinted kind v) : (Literal.typed kind p sign v).ending = (Literal.ofToken kind v.name).ending := by
  have hne : (Literal.ofToken kind v.name).render.toList ≠ [] := by
    intro h
    have hstarts := hv.starts
    rw [h] at hstarts
    cases hstarts
  cases kind with
  | integer =>
    have hvalue : (Literal.typed .integer p sign v).value.toList =
        sign.toList ++ (Literal.ofToken .integer v.name).render.toList := by
      simp [Literal.typed, Literal.ofToken, Literal.signedValue, Literal.render, Literal.renderValue]
    show numberEnding (Literal.typed .integer p sign v).value.toList = _
    rw [hvalue, numberEnding_append _ hne]
    rfl
  | bool | nonDecimal | real | string | wideString => rfl
  | duration | date | timeOfDay | dateAndTime => cases hplain

/-- Behind a type name that announces no time or date. -/
theorem Printed.behindType {l : List Char} {ok : Behind → Bool} {ps : List Piece}
    {R R' : List Lexeme → List Lexeme → Prop} (h : Printed l ok ps R) {t : String} {f : List Char}
    (ht : Scanned .typedLiteralPrefix t.toList f)
    (htype : ∀ type ∈ LiteralType.ofName? (withoutHash t), type.isTemporal = false)
    (hR : ∀ {s x y}, R x y → R' (⟨.typedLiteralPrefix, s, t⟩ :: x) y) :
    Printed (t.toList ++ l) ok (⟨.typedLiteralPrefix, t.toList⟩ :: ps) R' := by
  obtain ⟨w, hword, hw, hname⟩ := ht.withoutHash
  rw [hname] at htype
  show Printed _ ok ([⟨.typedLiteralPrefix, t.toList⟩] ++ ps) R'
  refine h.prepend ?_ (fun hb _ => ⟨hb, ?_⟩) fun hx => ?_
  · rw [hw]
    exact startsWith_append (startsWith_mono hword.start fun _ => isExprStart_of_isWordStart) _
  · rw [hw]
    exact (Scanned.of_typed hword (scanTyped_of_not_temporal htype _)).cut nofun
  · rw [placed_cons rfl, String.ofList_toList]
    exact hR hx

/-- Behind a sign. -/
theorem Printed.signed {l : List Char} {ok : Behind → Bool} {ps : List Piece} {R : List Lexeme → List Lexeme → Prop}
    (h : Printed l ok ps R) {t : Lexeme} {f : List Char} (ht : t.kind = .minus ∨ t.kind = .plus)
    (hs : Scanned t.kind t.text.toList f) :
    Printed (t.text.toList ++ l) ok (⟨t.kind, t.text.toList⟩ :: ps)
      fun x y => ∃ s x', R x' y ∧ x = ⟨t.kind, s, t.text⟩ :: x' := by
  obtain ⟨k, span, text⟩ := t
  have hspelling : text.toList = k.spelling.toList := by
    apply hs.eq_spelling <;> rcases ht with rfl | rfl <;> first | rfl | exact nofun
  show Printed _ ok ([⟨k, text.toList⟩] ++ ps) _
  refine h.prepend ?_ (fun hb _ => ⟨hb, ?_⟩) fun {o x y} hx => ?_
  · rw [hspelling]
    rcases ht with rfl | rfl <;> rfl
  · rw [hspelling]
    rcases ht with rfl | rfl <;> exact (Scanned.alone rfl rfl (by decide)).cut nofun
  · rw [placed_cons (by rcases ht with rfl | rfl <;> rfl), String.ofList_toList]
    exact ⟨_, x, hx, rfl⟩

theorem plain_typed {kind : LiteralKind} {p p' v v' : Lexeme} {sign : String} (hp : p'.text = p.text)
    (hv : (Literal.ofToken kind v'.name).plain = (Literal.ofToken kind v.name).plain) :
    (Literal.typed kind p' sign v').plain = (Literal.typed kind p sign v).plain := by
  have hsigned (l : Literal) : l.signedValue sign = l.plain.signedValue sign := by
    obtain ⟨kind, typeName, value, span⟩ := l
    cases typeName <;> rfl
  simp only [Literal.typed, Literal.plain, Option.map_some, Name.plain, hp, Literal.mk.injEq, true_and, and_true]
  rw [hsigned, hv, ← hsigned]

/-- A literal is printed. -/
theorem LiteralSpelled.printed {l : Literal} {x y : List Lexeme} (h : LiteralSpelled l x y) (hx : Lexed x) :
    ∃ ps, Printed l.render.toList l.ending.allows ps l.Respelled := by
  have hliteral {kind : LiteralKind} {k : TokenKind} (h : LiteralKind.ofToken? k = some kind) :
      k ≠ .dot ∧ k ≠ .dotDot := by
    constructor <;> rintro rfl <;> cases h
  cases h with
  | @token kind t y hkind _ =>
    obtain ⟨f, hs⟩ := hx.scanned (hliteral hkind).1 (hliteral hkind).2
    have ht := tokenPrinted hkind hs
    refine ⟨_, ⟨ht.starts, (ht.printed hkind).cut, fun o y hy => ?_⟩⟩
    obtain ⟨s, hs⟩ := (ht.printed hkind).spelled o hy
    rw [hs]
    refine ⟨_, ht.again s, LiteralSpelled.token (t := ⟨t.kind, s, _⟩) hkind ?_⟩
    rintro ⟨h, c, m, d, s, z, heq, htime⟩
    cases heq
    exact hy htime.colon
  | @timeOfDay h c m d s y ht =>
    exact ht.printed hx (l := ⟨.timeOfDay, none, h.text ++ c.text ++ m.text ++ d.text ++ s.text,
      spanBetween (h :: c :: m :: d :: s :: y) y⟩) rfl rfl rfl
  | @typed kind p v y hp hkind hfault =>
    obtain ⟨f, hs⟩ := hx.scanned_of_eq hp nofun nofun
    obtain ⟨g, hv⟩ := hx.tail.scanned (hliteral hkind).1 (hliteral hkind).2
    have hv := tokenPrinted hkind hv
    obtain ⟨htypes, hplain, -⟩ := LiteralFault.of?_eq_none hfault
    rw [render_typed hs hplain (.inl rfl), ending_typed hplain hv]
    refine ⟨_, (hv.printed hkind).behindType hs htypes ?_⟩
    rintro s x y ⟨s', rfl⟩
    have hspelled := @LiteralSpelled.typed kind ⟨.typedLiteralPrefix, s, p.text⟩
      ⟨v.kind, s', (Literal.ofToken kind v.name).render⟩ y rfl hkind hfault
    refine ⟨_, ?_, hspelled⟩
    exact plain_typed rfl (hv.again s')
  | @typedSigned kind p sign v y hp hsign hkind hfault =>
    obtain ⟨f, hs⟩ := hx.scanned_of_eq hp nofun nofun
    obtain ⟨g, hv⟩ := hx.tail.tail.scanned (hliteral hkind).1 (hliteral hkind).2
    obtain ⟨g', hsigns⟩ := hx.tail.scanned (by rcases hsign with h | h <;> rw [h] <;> exact nofun)
      (by rcases hsign with h | h <;> rw [h] <;> exact nofun)
    have hv := tokenPrinted hkind hv
    obtain ⟨htypes, hplain, hraw⟩ := LiteralFault.of?_eq_none hfault
    rw [render_typed hs hplain (.inr (hraw rfl)), ending_typed hplain hv]
    refine ⟨_, ((hv.printed hkind).signed hsign hsigns).behindType hs htypes ?_⟩
    rintro s x y ⟨s', x, ⟨s'', rfl⟩, rfl⟩
    have hspelled := @LiteralSpelled.typedSigned kind ⟨.typedLiteralPrefix, s, p.text⟩ ⟨sign.kind, s', sign.text⟩
      ⟨v.kind, s'', (Literal.ofToken kind v.name).render⟩ y rfl hsign hkind hfault
    refine ⟨_, ?_, hspelled⟩
    exact plain_typed rfl (hv.again s'')

end StructuredText
