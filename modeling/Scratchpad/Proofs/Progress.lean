import Scratchpad.Proofs.Arrival

/-! Progress. A parser serves requests: to take a token, to read at a layer, or to read all that is
left. From every place and every depth each request is served to an end; it never goes back, and it
never goes past the first end of input. -/
namespace Scratchpad

inductive Request where
  | advance
  | accept (expected : Kind → Bool)
  | expect (expected : Kind → Bool) (fault : Fault)
  | read (layer : Layer)
  | readAll

inductive Reply where
  | nothing
  | token (token : Token)
  | answer (hit : Bool)
  | expression (expression : Expr)
  | statements (statements : List Expr)

/-- How a request is served: the reply, and the descent behind it. -/
inductive Serves : Request → Descent → Reply → Descent → Prop where
  | advance {d : Descent} : Serves .advance d (.token d.current) d.advance
  | accept {d : Descent} {expected : Kind → Bool} :
    d.check expected = true → Serves (.accept expected) d (.answer true) d.advance
  | decline {d : Descent} {expected : Kind → Bool} :
    d.check expected = false → Serves (.accept expected) d (.answer false) d
  | expect {d : Descent} {expected : Kind → Bool} {fault : Fault} :
    d.check expected = true → Serves (.expect expected fault) d .nothing d.advance
  | miss {d : Descent} {expected : Kind → Bool} {fault : Fault} :
    d.check expected = false → Serves (.expect expected fault) d .nothing (d.note fault)
  | read {d d' : Descent} {layer : Layer} {e : Expr} :
    Performs (.layer layer) d e d' → Serves (.read layer) d (.expression e) d'
  | readAll {d d' : Descent} {es : List Expr} :
    PerformsAll d es d' → Serves .readAll d (.statements es) d'

inductive ServesAll : List Request → Descent → List Reply → Descent → Prop where
  | nil {d : Descent} : ServesAll [] d [] d
  | cons {d d₁ d' : Descent} {request : Request} {requests : List Request} {reply : Reply}
    {replies : List Reply} :
    Serves request d reply d₁ → ServesAll requests d₁ replies d' →
    ServesAll (request :: requests) d (reply :: replies) d'

def Cursor.serve (c : Cursor) : Request → Reply × Cursor
  | .advance => (.token c.current, c.advance)
  | .accept expected => (.answer (c.accept expected).1, (c.accept expected).2)
  | .expect expected fault => (.nothing, c.expect expected fault)
  | .read layer =>
    let read := c.read fun stop => layer.entry stop maxNesting
    (.expression read.1, read.2)
  | .readAll => (.statements c.readAll.1, c.readAll.2)

def Cursor.serveAll (c : Cursor) : List Request → List Reply × Cursor
  | [] => ([], c)
  | request :: requests =>
    let served := c.serve request
    let more := served.2.serveAll requests
    (served.1 :: more.1, more.2)

/-- A descent stands at a token, and not behind the first end of input. -/
structure Descent.Stands (tokens : List Token) (d : Descent) : Prop where
  current : (withEnd tokens)[d.position]? = some d.current
  position_le : d.position ≤ (withEnd tokens).findIdx Token.isEnd

/-- What a request does to a descent. -/
structure Proceeds (tokens : List Token) (request : Request) (d d' : Descent) : Prop where
  position_le : d.position ≤ d'.position
  faults : d.faults <+: d'.faults
  depth : d'.depth = d.depth
  progress (layer : Layer) : request = .read layer → d.current.kind ≠ .endOfInput →
    d.position < d'.position
  finish : request = .readAll → d'.position = (withEnd tokens).findIdx Token.isEnd

variable {tokens : List Token} {d d' : Descent} {request : Request} {reply : Reply}

theorem Descent.Within.stands (h : d.Within tokens) : d.Stands tokens where
  current := h.getElem?_position
  position_le := findIdx_withEnd tokens ▸ h.position_le

theorem Serves.keeps {P : Descent → Prop} (hP : Kept P) (h : Serves request d reply d')
    (hd : P d) : P d' := by
  cases h with
  | advance | accept | expect => exact hP.advance hd
  | decline => exact hd
  | miss => exact hP.note _ hd
  | read h => exact h.keeps hP hd
  | readAll h => exact h.keeps hP hd

theorem ServesAll.keeps {P : Descent → Prop} (hP : Kept P) {requests : List Request}
    {replies : List Reply} (h : ServesAll requests d replies d') (hd : P d) : P d' := by
  induction h with
  | nil => exact hd
  | cons h _ ih => exact ih (h.keeps hP hd)

/-- No move goes back, and none forgets a fault. -/
theorem kept_forward (n : Nat) (faults : List Diagnostic) :
    Kept fun d => n ≤ d.position ∧ faults <+: d.faults where
  advance h := ⟨h.1.trans (Cursor.position_le_moveTo _ _), h.2⟩
  note _ h := ⟨h.1, h.2.trans (List.prefix_append _ _)⟩
  skip h := ⟨h.1.trans (Cursor.position_le_moveTo _ _), h.2⟩
  enter h := h
  leave h := h

theorem exists_serves (request : Request) (hd : d.Within tokens) :
    ∃ reply d', Serves request d reply d' := by
  cases request with
  | advance => exact ⟨_, _, .advance⟩
  | accept expected =>
    cases h : d.check expected with
    | true => exact ⟨_, _, .accept h⟩
    | false => exact ⟨_, _, .decline h⟩
  | expect expected fault =>
    cases h : d.check expected with
    | true => exact ⟨_, _, .expect h⟩
    | false => exact ⟨_, _, .miss h⟩
  | read layer =>
    obtain ⟨e, d', h⟩ := exists_performs (.layer layer) hd.kind_stop
    exact ⟨_, _, .read h⟩
  | readAll =>
    obtain ⟨es, d', h⟩ := exists_performsAll hd
    exact ⟨_, _, .readAll h⟩

theorem exists_servesAll (requests : List Request) (hd : d.Within tokens) :
    ∃ replies d', ServesAll requests d replies d' := by
  induction requests generalizing d with
  | nil => exact ⟨[], d, .nil⟩
  | cons request requests ih =>
    obtain ⟨reply, d₁, h⟩ := exists_serves request hd
    obtain ⟨replies, d', hmore⟩ := ih (h.keeps (Descent.Within.kept tokens) hd)
    exact ⟨reply :: replies, d', .cons h hmore⟩

theorem Serves.depth_eq (h : Serves request d reply d') (hd : d.Within tokens) :
    d'.depth = d.depth := by
  cases h with
  | read h => exact (h.arrives hd.kind_stop).depth
  | readAll h => exact h.depth_eq hd.kind_stop
  | _ => rfl

/-- A request is served as a cursor serves it, outside of all groups, signs and assignments. -/
theorem Serves.eq_serve (h : Serves request d reply d') (hd : d.Within tokens)
    (hdepth : d.depth = 0) : (reply, d'.toCursor) = d.toCursor.serve request := by
  cases h with
  | advance => rfl
  | accept h | decline h => simp [Cursor.serve, Cursor.accept, h, Descent.advance]
  | expect h | miss h => simp [Cursor.serve, Cursor.expect, h, Descent.advance, Descent.note]
  | @read _ _ layer e h =>
    have harrives := h.arrives hd.kind_stop
    have hreads : d.reads (.layer layer) =
        (layer.entry d.feed.stop maxNesting).read d.feed.ahead := by
      rw [Descent.reads, Descent.nestingsLeft, hdepth]
      rfl
    rw [harrives.value, harrives.cursor, hreads]
    rfl
  | readAll h =>
    have harrives := h.arrives hd hdepth
    rw [Cursor.serve, ← harrives]

theorem Serves.proceeds (h : Serves request d reply d') (hd : d.Within tokens) :
    Proceeds tokens request d d' where
  position_le := (h.keeps (kept_forward d.position d.faults) ⟨Nat.le_refl _, List.prefix_rfl⟩).1
  faults := (h.keeps (kept_forward d.position d.faults) ⟨Nat.le_refl _, List.prefix_rfl⟩).2
  depth := h.depth_eq hd
  progress layer hlayer hend := by
    subst hlayer
    cases h with
    | read h =>
      have hlength := congrArg List.length (d.ahead_eq hd.kind_stop hend)
      have hshorter : d'.feed.ahead.length ≤ d.feed.ahead.tail.length := by
        rw [(h.arrives hd.kind_stop).ahead]
        exact (Reader.advances _ _).length_le
      have hbefore := congrArg List.length hd.ahead
      have hbehind := congrArg List.length (h.keeps (Descent.Within.kept tokens) hd).ahead
      simp only [List.length_append, List.length_cons] at hlength hbefore hbehind
      rw [Cursor.position, Cursor.position]
      omega
  finish hall := by
    subst hall
    cases h with
    | readAll h =>
      have hd' := h.keeps (Descent.Within.kept tokens) hd
      have hahead := hd'.ahead
      rw [hd'.ahead_eq_nil h.current_eq, List.append_nil] at hahead
      rw [findIdx_withEnd, ← hahead, Cursor.position]

theorem ServesAll.eq_serveAll {requests : List Request} {replies : List Reply}
    (h : ServesAll requests d replies d') (hd : d.Within tokens) (hdepth : d.depth = 0) :
    (replies, d'.toCursor) = d.toCursor.serveAll requests ∧ d'.depth = 0 := by
  induction h with
  | nil => exact ⟨rfl, hdepth⟩
  | @cons d d₁ d' request requests reply replies hfirst _ ih =>
    have hserve := hfirst.eq_serve hd hdepth
    obtain ⟨hmore, hdepth'⟩ := ih (hfirst.keeps (Descent.Within.kept tokens) hd)
      ((hfirst.depth_eq hd).trans hdepth)
    rw [Cursor.serveAll, ← hserve, ← hmore]
    exact ⟨rfl, hdepth'⟩

/-! ## What stands behind the end of input -/

def Cursor.forget (c : Cursor) : Cursor := { c with feed := { c.feed with beyond := [] } }

theorem Cursor.serve_forget (c : Cursor) (request : Request) :
    c.forget.serve request = ((c.serve request).1, (c.serve request).2.forget) := by
  cases request with
  | advance => rfl
  | accept expected =>
    have hcheck : c.forget.check expected = c.check expected := rfl
    rw [serve, serve, accept, accept, hcheck]
    cases c.check expected <;> rfl
  | expect expected fault =>
    have hcheck : c.forget.check expected = c.check expected := rfl
    rw [serve, serve, expect, expect, hcheck]
    cases c.check expected <;> rfl
  | read layer => rfl
  | readAll => rfl

theorem Cursor.serveAll_forget (c : Cursor) (requests : List Request) :
    c.forget.serveAll requests = ((c.serveAll requests).1, (c.serveAll requests).2.forget) := by
  induction requests generalizing c with
  | nil => rfl
  | cons request requests ih => simp [serveAll, serve_forget, ih]

theorem feed_append_of_isEnd {stop : Token} (hstop : stop.isEnd = true)
    (front beyond beyond' : List Token) :
    (feed (front ++ stop :: beyond)).ahead = (feed (front ++ stop :: beyond')).ahead ∧
      (feed (front ++ stop :: beyond)).stop = (feed (front ++ stop :: beyond')).stop := by
  induction front with
  | nil => simp [feed_cons_of_isEnd hstop]
  | cons t front ih =>
    cases ht : t.isEnd with
    | true => simp [feed_cons_of_isEnd ht]
    | false => simp [ahead_feed_cons ht, stop_feed_cons ht, ih]

theorem forget_ofTokens {stop : Token} (hstop : stop.isEnd = true)
    (front beyond beyond' : List Token) :
    (Cursor.ofTokens (front ++ stop :: beyond)).forget =
      (Cursor.ofTokens (front ++ stop :: beyond')).forget := by
  obtain ⟨hahead, hend⟩ := feed_append_of_isEnd hstop front beyond beyond'
  simp only [Cursor.ofTokens, Cursor.forget, hahead, hend]

/-- Whatever is asked of a parser, it stands at a token, not behind the first end of input. From
there every request is served to an end, as a cursor serves it; no request goes back, forgets a
fault or leaves groups open, reading takes a token, and reading all ends at the first end of input.
The tokens behind that one change nothing. -/
theorem requests_progress (tokens : List Token) (requests : List Request) :
    (∃ replies d, ServesAll requests (.ofTokens tokens) replies d) ∧
    ∀ replies d, ServesAll requests (.ofTokens tokens) replies d →
      d.Stands tokens ∧
      (∀ request, (∃ reply d', Serves request d reply d') ∧
        ∀ reply d', Serves request d reply d' →
          (reply, d'.toCursor) = d.serve request ∧ d'.Stands tokens ∧
            Proceeds tokens request d d') ∧
      ∀ front stop beyond beyond', tokens = front ++ stop :: beyond → stop.isEnd = true →
        ∀ replies' d', ServesAll requests (.ofTokens (front ++ stop :: beyond')) replies' d' →
          replies' = replies ∧ d'.position = d.position ∧ d'.faults = d.faults := by
  have hkept := Descent.Within.kept tokens
  have hstart := Descent.within_ofTokens tokens
  refine ⟨exists_servesAll requests hstart, fun replies d h => ?_⟩
  have hd := h.keeps hkept hstart
  obtain ⟨hserves, hdepth⟩ := h.eq_serveAll hstart rfl
  refine ⟨hd.stands, fun request => ⟨exists_serves request hd, fun reply d' h' => ?_⟩, ?_⟩
  · exact ⟨h'.eq_serve hd hdepth, (h'.keeps hkept hd).stands, h'.proceeds hd⟩
  · rintro front stop beyond beyond' rfl hstop replies' d' h'
    obtain ⟨hserves', -⟩ := h'.eq_serveAll (Descent.within_ofTokens _) rfl
    -- the two cursors begin alike once both forget what is behind, and serving forgets nothing else
    have hsame : (replies', d'.toCursor.forget) = (replies, d.toCursor.forget) := by
      calc (replies', d'.toCursor.forget)
        _ = (Cursor.ofTokens (front ++ stop :: beyond')).forget.serveAll requests := by
          rw [Cursor.serveAll_forget]
          exact congrArg (fun served => (served.1, served.2.forget)) hserves'
        _ = (Cursor.ofTokens (front ++ stop :: beyond)).forget.serveAll requests := by
          rw [forget_ofTokens hstop front beyond' beyond]
        _ = (replies, d.toCursor.forget) := by
          rw [Cursor.serveAll_forget]
          exact congrArg (fun served => (served.1, served.2.forget)) hserves.symm
    obtain ⟨hreplies, hcursor⟩ := Prod.mk.inj hsame
    exact ⟨hreplies, (congrArg Cursor.position hcursor :), (congrArg Cursor.faults hcursor :)⟩

/-- A lone minus sign is read as a statement, to the end of input and not into what is behind. -/
theorem requests_progress_minus :
    let minus : Token := ⟨.operator .minus, "-", ⟨1, 1, 0⟩⟩
    let stop : Token := ⟨.endOfInput, "", ⟨1, 2, 1⟩⟩
    let dot : Token := ⟨.dot, ".", ⟨1, 2, 1⟩⟩
    ∃ replies d, ServesAll [.read .statement] (.ofTokens [minus, stop, dot]) replies d ∧
      d.position = 1 ∧ d.current = stop ∧
      ∀ replies' d', ServesAll [.read .statement] (.ofTokens [minus, stop]) replies' d' →
        replies' = replies ∧ d'.position = 1 := by
  intro minus stop dot
  obtain ⟨-, hstep, -⟩ := (requests_progress [minus, stop, dot] []).2 _ _ .nil
  obtain ⟨⟨reply, d, h⟩, hall⟩ := hstep (.read .statement)
  obtain ⟨-, hstands, hproceeds⟩ := hall reply d h
  have hrun : ServesAll [.read .statement] (.ofTokens [minus, stop, dot]) [reply] d := .cons h .nil
  have hposition : d.position = 1 := by
    have hlower : 0 < d.position := hproceeds.progress .statement rfl (by decide)
    have hupper : d.position ≤ 1 := hstands.position_le
    omega
  have hcurrent := hstands.current
  rw [hposition] at hcurrent
  obtain ⟨-, -, hbeyond⟩ := (requests_progress [minus, stop, dot] _).2 _ _ hrun
  refine ⟨_, d, hrun, hposition, (Option.some.inj hcurrent).symm, fun replies' d' h' => ?_⟩
  obtain ⟨hreplies, hposition', -⟩ := hbeyond [minus] stop [dot] [] rfl (by decide) replies' d' h'
  exact ⟨hreplies, hposition'.trans hposition⟩

end Scratchpad
