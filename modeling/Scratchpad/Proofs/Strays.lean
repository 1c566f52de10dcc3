import Mathlib.Data.List.Induction
import Scratchpad.Session
import Scratchpad.Proofs.Layout

/-! Strays. A typed line is freed of characters that cannot be seen. Those without width apart, they
are blanks, and what a blank does for a line is to keep apart what stands on its two sides. So the
line that is stored is read as the typed one, except where a lexeme forms across a stray. -/
namespace Scratchpad

/-! ## Texts put together -/

/-- Whether lexemes at the end of a text, and characters at the start of the text behind it, spell
one lexeme. -/
def Joins (front back : List Char) : Prop :=
  ∃ before text after reach kind, lexemes front = before ++ text :: after ∧ reach <+: back ∧
    reach ≠ [] ∧ Spells (text ++ after.flatten ++ reach) kind

theorem Joins.mono {front back longer : List Char} (h : Joins front back)
    (hback : back <+: longer) : Joins front longer := by
  obtain ⟨before, text, after, reach, kind, hfront, hreach, hne, hspells⟩ := h
  exact ⟨before, text, after, reach, kind, hfront, hreach.trans hback, hne, hspells⟩

theorem Joins.cons {c : Char} {cs back : List Char}
    (h : Joins (cs.drop (extent c cs).length) back) : Joins (c :: cs) back := by
  obtain ⟨before, text, after, reach, kind, hfront, hreach, hne, hspells⟩ := h
  refine ⟨(c :: extent c cs) :: before, text, after, reach, kind, ?_, hreach, hne, hspells⟩
  rw [lexemes_cons, hfront, List.cons_append]

theorem extent_append {c : Char} {cs back : List Char} (h : ¬ Joins (c :: cs) back) :
    extent c (cs ++ back) = extent c cs := by
  have hprefix := extent_isPrefix c (cs ++ back)
  have hinside : extent c (cs ++ back) <+: cs := by
    rcases List.prefix_or_prefix_of_prefix hprefix (List.prefix_append cs back) with hin | hout
    · exact hin
    · obtain ⟨reach, hextent⟩ := hout
      have hspells := spells_extent c (cs ++ back)
      rw [← hextent] at hprefix hspells ⊢
      have hwhole : c :: extent c cs ++ (lexemes (cs.drop (extent c cs).length)).flatten ++ reach =
          c :: (cs ++ reach) := by
        rw [flatten_lexemes, List.cons_append,
          List.prefix_iff_eq_append.1 (extent_isPrefix c cs), List.cons_append]
      rw [← hwhole] at hspells
      by_contra hlong
      have hreach : reach ≠ [] := by
        rintro rfl
        exact hlong (by simp)
      exact h ⟨[], _, _, reach, _, lexemes_cons c cs, (List.prefix_append_right_inj cs).1 hprefix,
        hreach, hspells⟩
  exact (extent_eq_of_isPrefix (List.prefix_append cs back) hinside).symm

theorem Spells.isPrefix_of_lexemes {spelled text cs : List Char} {kind : Kind}
    {texts : List (List Char)} (h : Spells spelled kind) (hfront : spelled <+: cs)
    (hcs : lexemes cs = text :: texts) : spelled <+: text := by
  cases cs with
  | nil => simp at hcs
  | cons c cs =>
    rw [lexemes_cons] at hcs
    rw [← (List.cons.inj hcs).1]
    exact h.isPrefix hfront

/-- Two texts are cut as each is by itself if and only if they do not join. -/
theorem lexemes_append_iff {front back : List Char} :
    lexemes (front ++ back) = lexemes front ++ lexemes back ↔ ¬ Joins front back := by
  constructor
  · rintro hlexemes ⟨before, text, after, reach, kind, hfront, hreach, hne, hspells⟩
    have hcut : lexemes (text :: (after ++ lexemes back)).flatten =
        text :: (after ++ lexemes back) := by
      rw [hfront, List.append_assoc, List.cons_append] at hlexemes
      exact (lexemes_flatten hlexemes).2
    have hreaches : text ++ after.flatten ++ reach <+:
        (text :: (after ++ lexemes back)).flatten := by
      rw [List.flatten_cons, List.flatten_append, flatten_lexemes, ← List.append_assoc]
      exact (List.prefix_append_right_inj _).2 hreach
    have hlength := (hspells.isPrefix_of_lexemes hreaches hcut).length_le
    simp only [List.length_append] at hlength
    exact hne (List.length_eq_zero_iff.1 (by omega))
  · intro h
    fun_induction lexemes front with
    | case1 => rfl
    | case2 c cs ih =>
      have hlength := (extent_isPrefix c cs).length_le
      rw [List.cons_append, lexemes_cons, extent_append h, List.drop_append_of_le_length hlength,
        ih fun hrest => h hrest.cons, List.cons_append]

/-! ## Tokens without their places -/

namespace Token

def spelling (t : Token) : Kind × String := (t.kind, t.lexeme)

end Token

def solid (texts : List (List Char)) : List (List Char) :=
  texts.filter fun text => Kind.ofLexeme text ≠ .blank

@[simp] theorem solid_append (texts more : List (List Char)) :
    solid (texts ++ more) = solid texts ++ solid more := List.filter_append ..

theorem map_spelling_place (p : Position) (texts : List (List Char)) :
    ((place p texts).filter fun t => t.kind ≠ .blank).map Token.spelling =
      (solid texts).map (fun text => (.ofLexeme text, String.ofList text)) ++
        [(.endOfInput, "")] := by
  induction texts generalizing p with
  | nil => rfl
  | cons text texts ih =>
    have htexts := ih (p.after text)
    by_cases hblank : Kind.ofLexeme text = .blank
    · simpa [place, solid, hblank] using htexts
    · simpa [place, solid, hblank, Token.spelling] using htexts

theorem map_spelling_tokens (source : String) :
    (tokens source).map Token.spelling =
      (solid (lexemes source.toList)).map (fun text => (.ofLexeme text, String.ofList text)) ++
        [(.endOfInput, "")] :=
  map_spelling_place .start (lexemes source.toList)

/-- Texts have the same tokens, their places apart, if and only if their solid lexemes are the
same. -/
theorem map_spelling_tokens_eq_iff {a b : String} :
    (tokens a).map Token.spelling = (tokens b).map Token.spelling ↔
      solid (lexemes a.toList) = solid (lexemes b.toList) := by
  have hinj (text other : List Char)
      (h : (Kind.ofLexeme text, String.ofList text) = (Kind.ofLexeme other, String.ofList other)) :
      text = other := String.ofList_injective (Prod.mk.inj h).2
  rw [map_spelling_tokens, map_spelling_tokens, List.append_cancel_right_eq,
    List.map_inj_right hinj]

theorem meaning_of_spelling {a b : String}
    (h : (tokens b).map Token.spelling = (tokens a).map Token.spelling) :
    meaning b = meaning a := by
  have hkinds (source : String) :
      meaning source = ((tokens source).map Token.spelling).map fun s => s.1.gist := by
    simp [meaning, Token.spelling]
  rw [hkinds, hkinds, h]

/-! ## Blank lexemes -/

theorem Spells.eq_singleton {text : List Char} {kind : Kind} (h : Spells text kind) {c : Char}
    (hc : c ∈ text) (hblank : isBlank c = true) : text = [c] := by
  cases text with
  | nil => cases hc
  | cons d ds =>
    rcases List.mem_cons.1 hc with rfl | htail
    · have hfront := h.isPrefix List.prefix_rfl
      rw [extent_of_isBlank hblank] at hfront
      exact (hfront.eq_of_length_le (by simp))
    · simp [h.isBlank_of_mem_tail htail] at hblank

theorem Spells.exists_of_blank {text : List Char} (h : Spells text .blank) :
    ∃ c, text = [c] ∧ isBlank c = true := by
  cases h with
  | symbol hs => cases hs
  | keyword hk => cases hk
  | blank hc => exact ⟨_, rfl, hc⟩

theorem solid_cons_of_isBlank {c : Char} {cs : List Char} (h : isBlank c = false)
    (hspells : Spells (c :: cs) (.ofLexeme (c :: cs))) (texts : List (List Char)) :
    solid ((c :: cs) :: texts) = (c :: cs) :: solid texts := by
  refine List.filter_cons_of_pos (decide_eq_true fun hkind => ?_)
  rw [hkind] at hspells
  obtain ⟨d, hd, hblank⟩ := hspells.exists_of_blank
  rw [(List.cons.inj hd).1, hblank] at h
  cases h

theorem eq_of_solid_eq {texts others : List (List Char)}
    (h : ∀ text ∈ texts, Spells text (.ofLexeme text))
    (h' : ∀ text ∈ others, Spells text (.ofLexeme text))
    (hflatten : texts.flatten = others.flatten) (hsolid : solid texts = solid others) :
    texts = others := by
  induction texts generalizing others with
  | nil =>
    cases others with
    | nil => rfl
    | cons other others =>
      have hother := (h' other List.mem_cons_self).ne_nil
      simp [hother] at hflatten
  | cons text texts ih =>
    have htext := h text List.mem_cons_self
    cases others with
    | nil => simp [htext.ne_nil] at hflatten
    | cons other others =>
      have hother := h' other List.mem_cons_self
      obtain ⟨c, cs, rfl⟩ := List.exists_cons_of_ne_nil htext.ne_nil
      obtain ⟨d, ds, rfl⟩ := List.exists_cons_of_ne_nil hother.ne_nil
      obtain ⟨rfl, hrest⟩ : c = d ∧ cs ++ texts.flatten = ds ++ others.flatten := by
        simpa using hflatten
      have hsame : c :: cs = c :: ds := by
        -- a blank is a lexeme by itself; any other first lexeme is the first of the solid ones
        by_cases hblank : isBlank c = true
        · rw [htext.eq_singleton List.mem_cons_self hblank,
            hother.eq_singleton List.mem_cons_self hblank]
        · have hsolid' := Bool.eq_false_iff.2 hblank
          rw [solid_cons_of_isBlank hsolid' htext, solid_cons_of_isBlank hsolid' hother] at hsolid
          exact (List.cons.inj hsolid).1
      obtain rfl := (List.cons.inj hsame).2
      refine congrArg (_ :: ·) (ih (fun t ht => h t (List.mem_cons_of_mem _ ht))
        (fun t ht => h' t (List.mem_cons_of_mem _ ht)) (List.append_cancel_left hrest) ?_)
      rw [← List.singleton_append, ← List.singleton_append (l := others), solid_append,
        solid_append] at hsolid
      exact List.append_cancel_left hsolid

/-! ## Strays -/

def withoutStrays (text : List Char) : List Char := text.filter fun c => !Session.isStray c

@[simp] theorem withoutStrays_append (text more : List Char) :
    withoutStrays (text ++ more) = withoutStrays text ++ withoutStrays more :=
  List.filter_append ..

def seen (texts : List (List Char)) : List (List Char) :=
  texts.filter fun text => !text.any Session.isStray

@[simp] theorem seen_append (texts more : List (List Char)) :
    seen (texts ++ more) = seen texts ++ seen more := List.filter_append ..

/-- A line where a lexeme forms across a stray that is taken out. -/
def Divided (text : List Char) : Prop :=
  ∃ front c back, text = front ++ c :: back ∧ Session.isStray c = true ∧
    Joins (withoutStrays front) (withoutStrays back)

theorem Divided.append {text : List Char} (h : Divided text) (more : List Char) :
    Divided (text ++ more) := by
  obtain ⟨front, c, back, rfl, hc, hjoins⟩ := h
  refine ⟨front, c, back ++ more, by simp, hc, hjoins.mono ?_⟩
  rw [withoutStrays_append]
  exact List.prefix_append _ _

theorem stray_eq_singleton {text : List Char} (hs : Spells text (.ofLexeme text))
    (h : ∀ c ∈ text, Session.isStray c = true → isBlank c = true)
    (hstray : text.any Session.isStray = true) :
    ∃ c, text = [c] ∧ Session.isStray c = true ∧ Kind.ofLexeme text = .blank := by
  obtain ⟨c, hc, hcs⟩ := List.any_eq_true.1 hstray
  have hblank := h c hc hcs
  have htext := hs.eq_singleton hc hblank
  have hfeed : c ≠ '\n' := by
    rintro rfl
    exact absurd hcs (by decide)
  exact ⟨c, htext, hcs, htext ▸ Kind.ofLexeme_of_isBlank hblank hfeed⟩

theorem flatten_seen {texts : List (List Char)} (hs : ∀ text ∈ texts, Spells text (.ofLexeme text))
    (h : ∀ c ∈ texts.flatten, Session.isStray c = true → isBlank c = true) :
    (seen texts).flatten = withoutStrays texts.flatten := by
  induction texts with
  | nil => rfl
  | cons text texts ih =>
    have htexts := ih (fun t ht => hs t (List.mem_cons_of_mem _ ht))
      fun c hc => h c (List.mem_append_right text hc)
    rw [← List.singleton_append, seen_append, List.flatten_append, List.flatten_append,
      withoutStrays_append, htexts, List.flatten_singleton]
    congr 1
    by_cases hstray : text.any Session.isStray = true
    · obtain ⟨c, rfl, hc, -⟩ := stray_eq_singleton (hs text List.mem_cons_self)
        (fun c hc => h c (List.mem_append_left texts.flatten hc)) hstray
      simp [seen, withoutStrays, hc]
    · have hall : text.filter (fun c => !Session.isStray c) = text := by
        simpa [List.filter_eq_self] using hstray
      simp [seen, withoutStrays, hstray, hall]

theorem solid_seen {texts : List (List Char)} (hs : ∀ text ∈ texts, Spells text (.ofLexeme text))
    (h : ∀ c ∈ texts.flatten, Session.isStray c = true → isBlank c = true) :
    solid (seen texts) = solid texts := by
  rw [solid, seen, List.filter_filter]
  refine List.filter_congr fun text htext => ?_
  by_cases hstray : text.any Session.isStray = true
  · obtain ⟨-, -, -, hkind⟩ := stray_eq_singleton (hs text htext)
      (fun c hc => h c (List.mem_flatten_of_mem htext hc)) hstray
    simp [hkind]
  · simp [hstray]

theorem flatten_seen_lexemes {text : List Char}
    (h : ∀ c ∈ text, Session.isStray c = true → isBlank c = true) :
    (seen (lexemes text)).flatten = withoutStrays text := by
  rw [flatten_seen (fun _ => spells_of_mem_lexemes) (by rwa [flatten_lexemes]), flatten_lexemes]

theorem seen_lexemes_append (front : List Char) {c : Char} (hc : Session.isStray c = true)
    (hblank : isBlank c = true) (back : List Char) :
    seen (lexemes (front ++ c :: back)) = seen (lexemes front) ++ seen (lexemes back) := by
  rw [lexemes_append_of_isBlank front hblank, seen_append]
  simp [seen, hc]

theorem seen_lexemes_of_notMem {text : List Char} (h : ∀ c ∈ text, Session.isStray c = false) :
    seen (lexemes text) = lexemes text := by
  refine List.filter_eq_self.2 fun lexeme hlexeme => ?_
  simp only [Bool.not_eq_true', List.any_eq_false, Bool.not_eq_true]
  intro c hc
  have hmem := List.mem_flatten_of_mem hlexeme hc
  rw [flatten_lexemes] at hmem
  exact h c hmem

theorem lexemes_withoutStrays_append {front back : List Char}
    (h : ∀ c ∈ front, Session.isStray c = true → isBlank c = true)
    (hback : ∀ c ∈ back, Session.isStray c = false) (hd : ¬ Divided (front ++ back)) :
    lexemes (withoutStrays front ++ back) = seen (lexemes (front ++ back)) := by
  -- From the last stray on, a text is as it was typed.
  induction front using List.reverseRecOn generalizing back with
  | nil => exact (seen_lexemes_of_notMem hback).symm
  | append_singleton front c ih =>
    have hfront : ∀ d ∈ front, Session.isStray d = true → isBlank d = true :=
      fun d hmem => h d (List.mem_append_left [c] hmem)
    rw [List.append_assoc, List.singleton_append] at hd ⊢
    cases hc : Session.isStray c with
    | false =>
      have hrest := ih hfront (List.forall_mem_cons.2 ⟨hc, hback⟩) hd
      have hkept : withoutStrays [c] = [c] := by simp [withoutStrays, hc]
      rwa [withoutStrays_append, hkept, List.append_assoc, List.singleton_append]
    | true =>
      have hblank := h c (List.mem_append_right front List.mem_cons_self) hc
      have hgone : withoutStrays [c] = [] := by simp [withoutStrays, hc]
      have hwhole : withoutStrays back = back := List.filter_eq_self.2 (by simpa using hback)
      have hrest := ih hfront (List.forall_mem_nil _) fun hdivided =>
        hd (by simpa using hdivided.append (c :: back))
      rw [List.append_nil, List.append_nil] at hrest
      have hjoins : ¬ Joins (withoutStrays front) back :=
        fun hjoins => hd ⟨front, c, back, rfl, hc, by rwa [hwhole]⟩
      rw [withoutStrays_append, hgone, List.append_nil, lexemes_append_iff.2 hjoins, hrest,
        seen_lexemes_append front hc hblank, seen_lexemes_of_notMem hback]

/-- Without its strays a text has the lexemes that it has with them, unless it is divided. -/
theorem lexemes_withoutStrays_iff {text : List Char}
    (h : ∀ c ∈ text, Session.isStray c = true → isBlank c = true) :
    lexemes (withoutStrays text) = seen (lexemes text) ↔ ¬ Divided text := by
  constructor
  · rintro hlexemes ⟨front, c, back, rfl, hc, hjoins⟩
    have hblank := h c (List.mem_append_right front List.mem_cons_self) hc
    have hfront := flatten_seen_lexemes fun d hd => h d (List.mem_append_left _ hd)
    have hback := flatten_seen_lexemes fun d hd =>
      h d (List.mem_append_right front (List.mem_cons_of_mem c hd))
    rw [seen_lexemes_append front hc hblank back] at hlexemes
    obtain ⟨hcutFront, hcutBack⟩ := lexemes_flatten hlexemes
    rw [hfront] at hcutFront
    rw [hback] at hcutBack
    have hgone : withoutStrays (c :: back) = withoutStrays back := by simp [withoutStrays, hc]
    rw [withoutStrays_append, hgone, ← hcutFront, ← hcutBack] at hlexemes
    exact lexemes_append_iff.1 hlexemes hjoins
  · intro hd
    have hlexemes := lexemes_withoutStrays_append h (List.forall_mem_nil _)
      (by rwa [List.append_nil])
    rwa [List.append_nil, List.append_nil] at hlexemes

/-! ## Lines -/

/-- The strays that take no place when they are shown. -/
def isWidthless (c : Char) : Bool := ['\u200b', '\u200c', '\u200d', '\ufeff'].contains c

theorem isBlank_of_isStray {c : Char} (h : Session.isStray c = true)
    (hwidth : isWidthless c = false) : isBlank c = true := by
  have hstray : isWidthless c = true ∨ c = '\u00a0' ∨ c = '\r' := by
    simpa [Session.isStray, isWidthless, or_assoc] using h
  rcases hstray.resolve_left (by simp [hwidth]) with rfl | rfl <;> decide

/-- The line that is stored for a typed one without characters of no width has the same tokens if
and only if no lexeme forms across a stray. It then has the same value, display and messages in
every environment, and leaves the same one behind. -/
theorem tokens_normalize_iff {text : String} (h : text.toList.any isWidthless = false) :
    ((tokens (Session.normalize text)).map Token.spelling = (tokens text).map Token.spelling ↔
        ¬ Divided text.toList) ∧
      (¬ Divided text.toList → ∀ limit env, RunsAlike limit env text (Session.normalize text)) := by
  have hblank : ∀ c ∈ text.toList, Session.isStray c = true → isBlank c = true :=
    fun c hc hs => isBlank_of_isStray hs (by simpa using List.any_eq_false.1 h c hc)
  have hiff : (tokens (Session.normalize text)).map Token.spelling =
      (tokens text).map Token.spelling ↔ ¬ Divided text.toList := by
    have hnormal : (Session.normalize text).toList = withoutStrays text.toList :=
      String.toList_ofList
    have hsolid : solid (seen (lexemes text.toList)) = solid (lexemes text.toList) :=
      solid_seen (fun _ => spells_of_mem_lexemes) (by rwa [flatten_lexemes])
    rw [map_spelling_tokens_eq_iff, hnormal, ← hsolid, ← lexemes_withoutStrays_iff hblank]
    refine ⟨fun hsame => ?_, congrArg solid⟩
    refine eq_of_solid_eq (fun _ => spells_of_mem_lexemes)
      (fun lexeme hlexeme => spells_of_mem_lexemes (List.mem_of_mem_filter hlexeme)) ?_ hsame
    rw [flatten_lexemes, flatten_seen_lexemes hblank]
  refine ⟨hiff, fun hd limit env => ?_⟩
  exact runsAlike_of_meaning limit env (meaning_of_spelling (hiff.2 hd))

/-- A line with a carriage return behind it and no-break spaces around an operator. -/
theorem tokens_normalize_spaced :
    let typed := "1\u00a0+\u00a02\r"
    typed.toList.any isWidthless = false ∧
      ¬ Divided typed.toList ∧ Session.normalize typed = "1+2" ∧
      RunsAlike usualLimit .empty typed (Session.normalize typed) := by
  intro typed
  have hwidth : typed.toList.any isWidthless = false := by decide +kernel
  obtain ⟨hiff, halike⟩ := tokens_normalize_iff hwidth
  have hd : ¬ Divided typed.toList := hiff.1 (by decide +kernel)
  exact ⟨hwidth, hd, by decide +kernel, halike hd usualLimit .empty⟩

/-- A line that is no command, has no character without width, and is stored as another number. -/
theorem normalize_divided_numerals :
    let typed := "1\u00a02"
    typed.toList.any isWidthless = false ∧
      Command.ofLine? (Session.normalize typed) = none ∧
      (runLineWithin usualLimit typed .empty).1.display = "2" ∧
      (runLineWithin usualLimit (Session.normalize typed) .empty).1.display = "12" ∧
      (Session.respond .usual .empty typed).1 = .ofOutputs [.line "    = 12"] := by
  decide +kernel

end Scratchpad
