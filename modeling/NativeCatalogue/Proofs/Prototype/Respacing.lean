import NativeCatalogue.Proofs.Prototype.Decomposition
import NativeCatalogue.Proofs.Prototype.Following

/-!
Texts with other gaps. Between two tokens any gap may stand that starts with a blank and ends where it ends,
whatever follows it; the tokens are of the same kinds then. If the gaps of payloads are kept, the prototypes
are the same as well, because nothing else of a gap is ever read.
-/

set_option autoImplicit false

namespace NativeCatalogue

/-- A gap that ends where it ends: blanks, block comments, and lines with their newlines. -/
inductive IsClosedGap : List Char → Prop where
  | nil : IsClosedGap []
  | blank {c : Char} {gap : List Char} (h : Text.isBlank c = true) (hgap : IsClosedGap gap) :
      IsClosedGap (c :: gap)
  | line {line gap : List Char} (hopens : OpensLine line) (hline : '\n' ∉ line) (hgap : IsClosedGap gap) :
      IsClosedGap (line ++ '\n' :: gap)
  | comment {body gap : List Char} (h : IsCommentBody body) (hgap : IsClosedGap gap) :
      IsClosedGap ('/' :: '*' :: (body ++ gap))

structure IsSpacedGap (gap : List Char) : Prop where
  blank : ∃ c ∈ gap.head?, Text.isBlank c = true
  closed : IsClosedGap gap

structure Respaced where
  token : Token
  gap : List Char

def Respaced.ofPair (p : Token × Token) : Respaced :=
  ⟨p.1, p.2.gap⟩

def respacedChars (rows : List Respaced) : List Char :=
  rows.flatMap fun r => r.gap ++ r.token.kind.text

/-- Whether rows and a last gap give a text other gaps: each gap is kept, or tokens are kept apart by the
    other. -/
structure IsRespacing (source : String) (rows : List Respaced) (last : List Char) : Prop where
  tokens : tokenize source = .ok (rows.map Respaced.token)
  first : ∀ r ∈ rows.head?, r.gap = r.token.gap ∨ IsClosedGap r.gap
  between : ∀ r ∈ rows.tail, r.gap = r.token.gap ∨ IsSpacedGap r.gap
  last : last = [] ∨ IsSpacedGap last ∨ tokenChars (rows.map Respaced.token) ++ last = source.toList

/-- Whether the text of every payload is kept, from its opening parenthesis to the one that closes it. -/
def KeepsPayloads (rows : List Respaced) : Prop :=
  ∀ before keyword opening inside closing behind,
    rows = before ++ keyword :: opening :: (inside ++ closing :: behind) →
    Prototype.IsPayload keyword.token opening.token (inside.map Respaced.token) closing.token →
    ∀ r ∈ inside ++ [closing], r.gap = r.token.gap

theorem keepsPayloads_of_kept {r : Respaced} {rows : List Respaced} (h : ∀ q ∈ rows, q.gap = q.token.gap) :
    KeepsPayloads (r :: rows) := by
  intro before keyword opening inside closing behind hrows hpayload q hq
  have hmem : q ∈ opening :: (inside ++ closing :: behind) := by
    rw [List.append_cons]
    exact List.mem_cons_of_mem opening (List.mem_append_left behind hq)
  refine h q ?_
  cases before with
  | nil => rwa [(List.cons.inj hrows).2]
  | cons first before =>
    rw [(List.cons.inj hrows).2]
    exact List.mem_append_right before (List.mem_cons_of_mem keyword hmem)

theorem KeepsPayloads.cons {r : Respaced} {rows : List Respaced} (hr : r.token.isKeyword = false)
    (h : KeepsPayloads rows) : KeepsPayloads (r :: rows) := by
  intro before keyword opening inside closing behind hrows hpayload
  cases before with
  | nil =>
    obtain ⟨rfl, -⟩ := List.cons.inj hrows
    obtain ⟨kind, hkind, -⟩ := hpayload.keyword
    rw [Token.keyword_eq_none hr] at hkind
    cases hkind
  | cons first before =>
    exact h before keyword opening inside closing behind (List.cons.inj hrows).2 hpayload

/-- Of what stands behind a gap, only the first character matters to it. -/
theorem GapBefore.of_head {gap rest other : List Char} (h : GapBefore gap rest)
    (hhead : other.head? = rest.head?) : GapBefore gap other := by
  induction h with
  | nil => exact .nil other
  | @piece piece gap rest hpiece hgap ih =>
    refine .piece ?_ (ih hhead)
    cases hpiece with
    | blank hblank => exact .blank hblank
    | line hopens hline hrest =>
      rw [← List.head?_append_eq hhead] at hrest
      exact .line hopens hline hrest
    | comment hbody => exact .comment hbody

theorem GapBefore.blank {c : Char} {gap rest : List Char} (h : Text.isBlank c = true)
    (hgap : GapBefore gap rest) : GapBefore (c :: gap) rest :=
  .piece (.blank h) hgap

theorem GapBefore.comment {body gap rest : List Char} (h : IsCommentBody body) (hgap : GapBefore gap rest) :
    GapBefore ('/' :: '*' :: (body ++ gap)) rest :=
  .piece (.comment h) hgap

theorem IsClosedGap.before {gap : List Char} (h : IsClosedGap gap) (rest : List Char) :
    GapBefore gap rest := by
  induction h with
  | nil => exact .nil rest
  | @blank c gap hblank hgap ih => exact .blank hblank ih
  | @line line gap hopens hline hgap ih =>
    exact .piece (.line hopens hline fun c hc => (Option.some.inj hc).symm) (.blank rfl ih)
  | @comment body gap hbody hgap ih => exact .comment hbody ih

theorem IsSpacedGap.head {gap : List Char} (h : IsSpacedGap gap) (rest : List Char) :
    ∀ c ∈ (gap ++ rest).head?, Text.isBlank c = true := by
  obtain ⟨blank, hhead, hblank⟩ := h.blank
  intro c hc
  rw [List.head?_append, hhead] at hc
  exact Option.some.inj hc ▸ hblank

section

variable {offset : Nat} {cs tail last : List Char} {rows : List Respaced}

theorem head_respaced (h : Decomposes offset cs (rows.map Respaced.token) tail [])
    (hgaps : ∀ r ∈ rows.head?, r.gap = r.token.gap ∨ IsSpacedGap r.gap)
    (hlast : last = [] ∨ IsSpacedGap last ∨ last = tail) :
    ∀ c ∈ (respacedChars rows ++ last).head?, Text.isBlank c = true ∨ c ∈ cs.head? := by
  cases rows with
  | nil =>
    rw [h.chars]
    intro c hc
    rcases hlast with rfl | hspaced | rfl
    · cases hc
    · exact .inl (hspaced.head [] c (by rwa [List.append_nil]))
    · exact .inr (by rwa [List.append_nil])
  | cons r rows =>
    obtain ⟨t, gap⟩ := r
    rw [respacedChars, List.flatMap_cons, List.append_assoc, List.append_assoc]
    intro c hc
    rcases hgaps _ rfl with hkept | hspaced
    · cases h with
      | token hgap hsound hclash h =>
        right
        cases hkept
        rwa [List.head?_append_eq (List.head?_append_same (text_ne_nil hsound) _ _)] at hc
    · exact .inl (hspaced.head _ c hc)

/-- The text with the other gaps has the tokens of the text, with these gaps and at other places. -/
theorem decomposes_respaced (h : Decomposes offset cs (rows.map Respaced.token) tail [])
    (hfirst : ∀ r ∈ rows.head?, r.gap = r.token.gap ∨ IsClosedGap r.gap)
    (hbetween : ∀ r ∈ rows.tail, r.gap = r.token.gap ∨ IsSpacedGap r.gap)
    (hlast : last = [] ∨ IsSpacedGap last ∨ last = tail) (other : Nat) :
    ∃ pairs : List (Token × Token), pairs.map Respaced.ofPair = rows ∧
      (∀ p ∈ pairs, p.2.kind = p.1.kind) ∧
      Decomposes other (respacedChars rows ++ last) (pairs.map Prod.snd) last [] := by
  induction rows generalizing offset cs other with
  | nil =>
    refine ⟨[], rfl, fun p hp => absurd hp List.not_mem_nil, ?_⟩
    have hgap : GapBefore last [] := by
      rcases hlast with rfl | hspaced | rfl
      · exact .nil []
      · exact hspaced.closed.before []
      · cases h with
        | gap hgap => exact hgap
    have hdecomposes : Decomposes other (last ++ []) [] last [] := .gap hgap
    rw [List.append_nil] at hdecomposes
    exact hdecomposes
  | cons r rows ih =>
    obtain ⟨t, gap⟩ := r
    cases h with
    | @token offset before behind _ _ kind ts hgap hsound hclash h =>
      have hspaced : ∀ r ∈ rows.head?, r.gap = r.token.gap ∨ IsSpacedGap r.gap :=
        fun r hr => hbetween r (List.mem_of_mem_head? hr)
      obtain ⟨pairs, hrows, hkinds, hmore⟩ := ih h
        (fun r hr => (hspaced r hr).imp_right IsSpacedGap.closed)
        (fun r hr => hbetween r (List.mem_of_mem_tail hr)) (other + byteLength gap + byteLength kind.text)
      refine ⟨(⟨before, kind, offset + byteLength before⟩, ⟨gap, kind, other + byteLength gap⟩) :: pairs,
        congrArg (_ :: ·) hrows, List.forall_mem_cons.2 ⟨rfl, hkinds⟩, ?_⟩
      rw [respacedChars, List.flatMap_cons, List.append_assoc, List.append_assoc]
      refine .token ?_ hsound (fun c hc => ?_) hmore
      · rcases hfirst _ rfl with hkept | hclosed
        · cases hkept
          exact hgap.of_head (List.head?_append_same (text_ne_nil hsound) _ _)
        · exact hclosed.before _
      · rcases head_respaced h hspaced hlast c hc with hblank | hhead
        · exact clashes_blank kind hblank
        · exact hclash c hhead

end

namespace Prototype

def AgreeOnPayloads (pairs : List (Token × Token)) : Prop :=
  ∀ before keyword opening inside closing behind,
    pairs = before ++ keyword :: opening :: (inside ++ closing :: behind) →
    IsPayload keyword.1 opening.1 (inside.map Prod.fst) closing.1 →
    ∀ p ∈ inside ++ [closing], p.2.gap = p.1.gap

def Alike (ts us : List Token) : Prop :=
  ∃ pairs : List (Token × Token), pairs.map Prod.fst = ts ∧ pairs.map Prod.snd = us ∧
    (∀ p ∈ pairs, p.2.kind = p.1.kind) ∧ AgreeOnPayloads pairs

theorem AgreeOnPayloads.behind (more : List (Token × Token)) {pairs : List (Token × Token)}
    (h : AgreeOnPayloads (more ++ pairs)) : AgreeOnPayloads pairs := by
  intro before keyword opening inside closing behind hpairs
  refine h (more ++ before) keyword opening inside closing behind ?_
  rw [hpairs, List.append_assoc]

theorem parenthesesPair_of_kinds {ts us : List Token} (h : us.map Token.kind = ts.map Token.kind)
    (depth : Nat) : parenthesesPair depth us = parenthesesPair depth ts := by
  induction ts generalizing us depth with
  | nil => rw [List.map_eq_nil_iff.1 h]
  | cons t ts ih =>
    obtain ⟨gap, kind, start⟩ := t
    obtain ⟨⟨gap', kind', start'⟩, us, rfl, hu, hus⟩ := List.map_eq_cons_iff.1 h
    obtain rfl : kind' = kind := hu
    cases kind' with
    | openParen => exact ih hus (depth + 1)
    | closeParen =>
      cases depth with
      | zero => rfl
      | succ depth => exact ih hus depth
    | _ => exact ih hus depth

theorem kinds_of_pairs {pairs : List (Token × Token)} (h : ∀ p ∈ pairs, p.2.kind = p.1.kind) :
    (pairs.map Prod.snd).map Token.kind = (pairs.map Prod.fst).map Token.kind := by
  rw [List.map_map, List.map_map]
  exact List.map_congr_left h

theorem isPayload_of_pairs {keyword opening closing : Token × Token} {inside : List (Token × Token)}
    (hkeyword : keyword.2.kind = keyword.1.kind) (hopening : opening.2.kind = opening.1.kind)
    (hinside : ∀ p ∈ inside, p.2.kind = p.1.kind) (hclosing : closing.2.kind = closing.1.kind) :
    IsPayload keyword.2 opening.2 (inside.map Prod.snd) closing.2 ↔
      IsPayload keyword.1 opening.1 (inside.map Prod.fst) closing.1 := by
  have hpair := parenthesesPair_of_kinds (kinds_of_pairs hinside) 0
  have hident := ident?_eq_of_kind hkeyword
  constructor
  · rintro ⟨h1, h2, h3, h4⟩
    exact ⟨hident ▸ h1, hopening ▸ h2, hpair ▸ h3, hclosing ▸ h4⟩
  · rintro ⟨h1, h2, h3, h4⟩
    exact ⟨hident ▸ h1, hopening ▸ h2, hpair ▸ h3, hclosing ▸ h4⟩

theorem Alike.symm {ts us : List Token} (h : Alike ts us) : Alike us ts := by
  obtain ⟨pairs, rfl, rfl, hkinds, hagree⟩ := h
  have hswap : ∀ {p}, p ∈ pairs.map Prod.swap → p.swap ∈ pairs := by
    intro p hp
    obtain ⟨q, hq, rfl⟩ := List.mem_map.1 hp
    rwa [Prod.swap_swap]
  refine ⟨pairs.map Prod.swap, by rw [List.map_map]; rfl, by rw [List.map_map]; rfl,
    fun p hp => (hkinds _ (hswap hp)).symm, ?_⟩
  intro before keyword opening inside closing behind hpairs hpayload p hp
  have hback : pairs = before.map Prod.swap ++ keyword.swap :: opening.swap ::
      (inside.map Prod.swap ++ closing.swap :: behind.map Prod.swap) := by
    have hmap := congrArg (List.map Prod.swap) hpairs
    rw [List.map_map, Prod.swap_swap_eq, List.map_id] at hmap
    simpa using hmap
  have hsame : ∀ q ∈ pairs.map Prod.swap, q.1.kind = q.2.kind := fun q hq => hkinds _ (hswap hq)
  rw [hpairs] at hsame
  refine (hagree _ _ _ _ _ _ hback ?_ p.swap ?_).symm
  · rw [List.map_map]
    refine (isPayload_of_pairs (hsame _ ?_).symm (hsame _ ?_).symm (fun q hq => (hsame q ?_).symm)
      (hsame _ ?_).symm).2 hpayload
    all_goals simp [*]
  · rw [← List.map_singleton, ← List.map_append]
    exact List.mem_map_of_mem hp

theorem Alike.cons {t : Token} {ts us : List Token} (h : Alike (t :: ts) us) :
    ∃ u vs, us = u :: vs ∧ u.kind = t.kind ∧ Alike ts vs := by
  obtain ⟨pairs, hts, rfl, hkinds, hagree⟩ := h
  obtain ⟨p, pairs, rfl, rfl, rfl⟩ := List.map_eq_cons_iff.1 hts
  obtain ⟨hkind, hkinds⟩ := List.forall_mem_cons.1 hkinds
  exact ⟨p.2, pairs.map Prod.snd, rfl, hkind, pairs, rfl, rfl, hkinds, hagree.behind [p]⟩

theorem tokenChars_of_pairs {pairs : List (Token × Token)} (hkinds : ∀ p ∈ pairs, p.2.kind = p.1.kind)
    (hgaps : ∀ p ∈ pairs, p.2.gap = p.1.gap) :
    tokenChars (pairs.map Prod.snd) = tokenChars (pairs.map Prod.fst) := by
  rw [tokenChars, tokenChars, List.flatMap_map, List.flatMap_map]
  exact List.flatMap_congr fun p hp => by rw [hgaps p hp, hkinds p hp]

theorem Alike.readPayload {t u : Token} {ts us rest : List Token} {kind : AnnotationKind}
    {text : Option String} (h : Alike (t :: ts) (u :: us))
    (hkeyword : t.ident?.bind AnnotationKind.ofKeyword? = some kind)
    (hread : Prototype.readPayload kind ts = .ok (text, rest)) :
    ∃ vs, Prototype.readPayload kind us = .ok (text, vs) ∧ Alike rest vs := by
  cases htakes : kind.takesPayload with
  | false =>
    rw [readPayload_of_not_takesPayload htakes] at hread ⊢
    cases hread
    obtain ⟨_, _, he, -, hrest⟩ := h.cons
    cases he
    exact ⟨us, rfl, hrest⟩
  | true =>
    obtain ⟨opening, inside, closing, rfl, hpayload, rfl⟩ := (readPayload_eq_ok hkeyword htakes).1 hread
    obtain ⟨pairs, hts, hus, hkinds, hagree⟩ := h
    obtain ⟨first, pairs, rfl, rfl, hopening⟩ := List.map_eq_cons_iff.1 hts
    obtain ⟨second, pairs, rfl, rfl, hinside⟩ := List.map_eq_cons_iff.1 hopening
    obtain ⟨middle, pairs, rfl, rfl, hclosing⟩ := List.map_eq_append_iff.1 hinside
    obtain ⟨final, pairs, rfl, rfl, rfl⟩ := List.map_eq_cons_iff.1 hclosing
    obtain ⟨rfl, rfl⟩ := List.cons.inj hus
    have hgaps := hagree [] first second middle final pairs rfl hpayload
    simp only [List.forall_mem_cons, List.forall_mem_append] at hkinds hgaps
    obtain ⟨hfirst, hsecond, hmiddle, hfinal, hkinds⟩ := hkinds
    refine ⟨pairs.map Prod.snd, ?_, pairs, rfl, rfl, hkinds, ?_⟩
    · have hother : first.2.ident?.bind AnnotationKind.ofKeyword? = some kind := by
        rwa [ident?_eq_of_kind hfirst]
      refine (readPayload_eq_ok hother htakes).2
        ⟨second.2, middle.map Prod.snd, final.2, by simp,
          (isPayload_of_pairs hfirst hsecond hmiddle hfinal).2 hpayload, ?_⟩
      rw [tokenChars_of_pairs hmiddle hgaps.1, hgaps.2.1]
    · exact AgreeOnPayloads.behind (first :: second :: (middle ++ [final])) (by simpa using hagree)

theorem Alike.readAnnotationsInto {s out : AnnotationSet} {ts us rest : List Token} (h : Alike ts us)
    (hread : Prototype.readAnnotationsInto s ts = .ok (out, rest)) :
    ∃ vs, Prototype.readAnnotationsInto s us = .ok (out, vs) ∧ Alike rest vs := by
  fun_induction Prototype.readAnnotationsInto s ts generalizing us with
  | case1 s =>
    cases hread
    obtain ⟨pairs, hts, rfl, hrest⟩ := h
    obtain rfl := List.map_eq_nil_iff.1 hts
    exact ⟨[], by rw [List.map_nil, Prototype.readAnnotationsInto], [], rfl, rfl, hrest⟩
  | case2 s t ts hplain =>
    cases hread
    obtain ⟨u, vs, rfl, hu, -⟩ := h.cons
    exact ⟨u :: vs, readAnnotationsInto_other (ident?_eq_of_kind hu ▸ hplain) _ vs, h⟩
  | case3 => cases hread
  | case4 => cases hread
  | case5 s t ts kind hkeyword text after hpayload a hmake ih =>
    obtain ⟨u, us, rfl, hu, -⟩ := h.cons
    obtain ⟨vs, hvs, hafter⟩ := h.readPayload hkeyword hpayload
    obtain ⟨ws, hws, hrest⟩ := ih hafter hread
    refine ⟨ws, ?_, hrest⟩
    rw [readAnnotationsInto_keyword (ident?_eq_of_kind hu ▸ hkeyword), hvs]
    simp only [bind, Except.bind, hmake, hws]

theorem follows_alike : Follows true Alike where
  nil := by
    rintro us ⟨pairs, hts, rfl, -⟩
    rw [List.map_eq_nil_iff.1 hts]
    rfl
  cons t ts us h _ := by
    obtain ⟨u, vs, rfl, hu, hrest⟩ := h.cons
    exact ⟨u, vs, rfl, hu, fun _ => hrest⟩
  annotations ts us s rest h hread := h.readAnnotationsInto hread
  void := by
    rintro - ts us h ⟨u, v, more, rfl, hu, hv⟩
    obtain ⟨t, ts, rfl, ht, h⟩ := h.symm.cons
    obtain ⟨t', ts, rfl, ht', -⟩ := h.cons
    exact ⟨t, t', ts, rfl, ht.trans hu, ht'.trans hv⟩

theorem Alike.eatSemicolon {ts us : List Token} (h : Alike ts us) :
    Alike (Prototype.eatSemicolon ts) (Prototype.eatSemicolon us) := by
  cases ts with
  | nil =>
    obtain rfl := follows_alike.nil us h
    exact h
  | cons t ts =>
    obtain ⟨u, vs, rfl, hu, hrest⟩ := h.cons
    rw [Prototype.eatSemicolon, Prototype.eatSemicolon, hu]
    split
    · exact hrest
    · exact h

theorem Alike.readPrototypes {ts us : List Token} {ps : List Prototype} (h : Alike ts us)
    (hread : Prototype.readPrototypes ts = .ok ps) : Prototype.readPrototypes us = .ok ps := by
  induction hlength : ts.length using Nat.strongRecOn generalizing ts us ps with
  | _ length ih =>
    cases ts with
    | nil =>
      obtain rfl := follows_alike.nil us h
      exact hread
    | cons t ts =>
      obtain ⟨p, rest, others, hp, hothers, rfl⟩ := readPrototypes_cons_eq_ok hread
      obtain ⟨last, vs, rfl, -, hlast, hprototype⟩ := follows_alike.readPrototype h hp (by simp)
      have hshort := readPrototype_length hp
      have hmore := ih _ (hlength ▸ hshort) hlast.eatSemicolon hothers rfl
      obtain ⟨u, us, rfl, -⟩ := h.cons
      rw [readPrototypes_cons, hprototype, keep_true]
      simp only [bind, Except.bind, hmore]
      rfl

/-- A text with other gaps has tokens of the same kinds, and if payloads are kept, the same prototypes. -/
theorem parseAll_respaced {source : String} {rows : List Respaced} {last : List Char}
    (h : IsRespacing source rows last) :
    (∃ us, tokenize (.ofList (respacedChars rows ++ last)) = .ok us ∧
      us.map Token.kind = rows.map fun r => r.token.kind) ∧
    (KeepsPayloads rows → ∀ ps, parseAll (.ofList (respacedChars rows ++ last)) = .ok ps ↔
      parseAll source = .ok ps) := by
  obtain ⟨tail, hsource⟩ := decomposes_of_tokensFrom h.tokens
  have hlast : last = [] ∨ IsSpacedGap last ∨ last = tail := by
    refine h.last.imp_right (Or.imp_right fun hkept => ?_)
    rw [hsource.chars, List.append_nil] at hkept
    exact List.append_cancel_left hkept
  obtain ⟨pairs, rfl, hkinds, hrespaced⟩ := decomposes_respaced hsource h.first h.between hlast 0
  have htokens : tokenize (.ofList (respacedChars (pairs.map Respaced.ofPair) ++ last)) =
      .ok (pairs.map Prod.snd) := by
    rw [tokenize, String.toList_ofList]
    exact hrespaced.tokensFrom
  have hfirst : tokenize source = .ok (pairs.map Prod.fst) := by
    rw [h.tokens, List.map_map]
    rfl
  refine ⟨⟨_, htokens, by rw [kinds_of_pairs hkinds, List.map_map, List.map_map]; rfl⟩, fun hkeeps ps => ?_⟩
  have halike : Alike (pairs.map Prod.fst) (pairs.map Prod.snd) := by
    refine ⟨pairs, rfl, rfl, hkinds, ?_⟩
    rintro before keyword opening inside closing behind rfl hpayload p hp
    refine hkeeps (before.map .ofPair) (.ofPair keyword) (.ofPair opening) (inside.map .ofPair)
      (.ofPair closing) (behind.map .ofPair) (by simp) ?_ (.ofPair p) ?_
    · rw [List.map_map]
      exact hpayload
    · rw [← List.map_singleton, ← List.map_append]
      exact List.mem_map_of_mem hp
  have hmap : ∀ text : String, ∀ ts, tokenize text = .ok ts → parseAll text = Prototype.readPrototypes ts := by
    intro text ts hts
    rw [parseAll, hts]
    rfl
  rw [hmap _ _ htokens, hmap _ _ hfirst]
  exact ⟨halike.symm.readPrototypes, halike.readPrototypes⟩

theorem parseAll_respaced_sample :
    (∃ us, tokenize "int\t# (\nf /*/*/ (void) //\nsince(1 /*.*/ 2) " = .ok us ∧ us.length = 10) ∧
    ∀ ps, parseAll "int\t# (\nf /*/*/ (void) //\nsince(1 /*.*/ 2) " = .ok ps ↔
      parseAll "int f(void)since(1 /*.*/ 2)" = .ok ps := by
  let rows : List Respaced := [⟨⟨[], .ident "int", 0⟩, []⟩,
    ⟨⟨[' '], .ident "f", 4⟩, ['\t', '#', ' ', '(', '\n']⟩,
    ⟨⟨[], .openParen, 5⟩, [' ', '/', '*', '/', '*', '/', ' ']⟩, ⟨⟨[], .ident "void", 6⟩, []⟩,
    ⟨⟨[], .closeParen, 10⟩, []⟩, ⟨⟨[], .ident "since", 11⟩, [' ', '/', '/', '\n']⟩,
    ⟨⟨[], .openParen, 16⟩, []⟩, ⟨⟨[], .number "1", 17⟩, []⟩,
    ⟨⟨" /*.*/ ".toList, .number "2", 25⟩, " /*.*/ ".toList⟩, ⟨⟨[], .closeParen, 26⟩, []⟩]
  have hrows : IsRespacing "int f(void)since(1 /*.*/ 2)" rows [' '] := by
    refine ⟨by decide +kernel, fun r hr => .inl (Option.some.inj hr ▸ rfl), ?_, ?_⟩
    · simp only [rows, List.tail_cons, List.forall_mem_cons]
      refine ⟨.inr ⟨⟨'\t', rfl, rfl⟩, ?_⟩, .inr ⟨⟨' ', rfl, rfl⟩, ?_⟩, .inl trivial, .inl trivial,
        .inr ⟨⟨' ', rfl, rfl⟩, ?_⟩, .inl trivial, .inl trivial, .inl trivial, .inl trivial,
        fun _ h => absurd h List.not_mem_nil⟩
      · have hline : IsClosedGap (['#', ' ', '('] ++ ['\n']) := .line (.inr ⟨_, rfl⟩) (by decide) .nil
        exact .blank rfl hline
      · have hbody : IsCommentBody ['/', '*', '/'] := ⟨⟨['/'], rfl⟩, by decide⟩
        exact .blank rfl (.comment hbody (.blank rfl .nil))
      · have hline : IsClosedGap (['/', '/'] ++ ['\n']) := .line (.inl ⟨[], rfl⟩) (by decide) .nil
        exact .blank rfl hline
    · exact .inr (.inl ⟨⟨' ', rfl, rfl⟩, .blank rfl .nil⟩)
  have hkeeps : KeepsPayloads rows :=
    .cons rfl <| .cons rfl <| .cons rfl <| .cons rfl <| .cons rfl <| keepsPayloads_of_kept (by simp)
  obtain ⟨⟨us, hus, hkinds⟩, hsame⟩ := parseAll_respaced hrows
  exact ⟨⟨us, hus, by simpa [rows] using congrArg List.length hkinds⟩, hsame hkeeps⟩

end Prototype

end NativeCatalogue
