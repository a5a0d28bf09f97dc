/-
The log of what a backend writes to standard error.

The stream is cut at its line feeds, wherever the pieces end in which it arrives.  What carries that
through the pieces is that the kept part has no line feed in it and that the lines so far and the
kept part together are the text so far.  A client looks at the stream now and then; it makes no
difference when.
-/
import AnalyzerBridge.Host.Follow
import AnalyzerBridge.Session.Client
import AnalyzerBridge.Proofs.Bytes.Pieces
import AnalyzerBridge.Proofs.Host.Launches

namespace AnalyzerBridge

open Host (Descriptor World)

namespace ErrorLines

variable {text rest : Bytes} {lines : List Bytes} {l : ErrorLines}

/-! ### The lines of a text -/

/-- A text is these lines, each with its line feed, and a rest in which there is none. -/
structure Lined (text : Bytes) (lines : List Bytes) (rest : Bytes) : Prop where
  text_eq : text = lines.flatMap (· ++ [10]) ++ rest
  ended : ∀ line ∈ lines, 10 ∉ line
  unended : 10 ∉ rest

theorem lined_nil : Lined [] [] [] := ⟨rfl, by simp, by simp⟩

/-- There is one way to cut a text, and that is how it is cut. -/
theorem Lined.cut_eq (h : Lined text lines rest) : cut text = (lines, rest) := by
  have hsplit : Bytes.splitOn 10 text = lines ++ [rest] := by
    rw [h.text_eq, Bytes.splitOn_flatMap_append h.ended, Bytes.splitOn_of_not_mem h.unended]
  unfold cut
  rw [hsplit]
  cases lines with
  | nil => rfl
  | cons line lines =>
      show ((line :: lines ++ [rest]).dropLast, (line :: lines ++ [rest]).getLastD [])
        = (line :: lines, rest)
      rw [List.dropLast_concat, List.getLastD_concat]

theorem Lined.unique (h : Lined text lines rest) {lines' : List Bytes} {rest' : Bytes}
    (h' : Lined text lines' rest') : lines' = lines ∧ rest' = rest :=
  Prod.mk.inj (h'.cut_eq.symm.trans h.cut_eq)

theorem exists_lined (text : Bytes) : ∃ lines rest, Lined text lines rest := by
  induction text with
  | nil => exact ⟨[], [], lined_nil⟩
  | cons b text ih =>
      obtain ⟨lines, rest, h⟩ := ih
      by_cases hb : b = 10
      · refine ⟨[] :: lines, rest, ?_, List.forall_mem_cons.mpr ⟨by simp, h.ended⟩, h.unended⟩
        simp [hb, h.text_eq]
      · cases lines with
        | nil =>
            refine ⟨[], b :: rest, ?_, by simp, ?_⟩
            · simp [h.text_eq]
            · simp [Ne.symm hb, h.unended]
        | cons line lines =>
            obtain ⟨hline, hlines⟩ := List.forall_mem_cons.mp h.ended
            refine ⟨(b :: line) :: lines, rest, ?_, List.forall_mem_cons.mpr ⟨?_, hlines⟩,
              h.unended⟩
            · simp [h.text_eq]
            · simp [Ne.symm hb, hline]

theorem lined_cut (text : Bytes) : Lined text (cut text).1 (cut text).2 := by
  obtain ⟨lines, rest, h⟩ := exists_lined text
  rw [h.cut_eq]
  exact h

/-- More text goes behind the rest. -/
theorem Lined.append (h : Lined text lines rest) {piece rest' : Bytes} {more : List Bytes}
    (h' : Lined (rest ++ piece) more rest') : Lined (text ++ piece) (lines ++ more) rest' where
  text_eq := by
    rw [List.flatMap_append, List.append_assoc, ← h'.text_eq, ← List.append_assoc, ← h.text_eq]
  ended := List.forall_mem_append.mpr ⟨h.ended, h'.ended⟩
  unended := h'.unended

/-! ### The log of a text -/

/-- The log of lines and of what follows the last of them. -/
def logOf (lines : List Bytes) (rest : Bytes) : List Bytes :=
  ((lines.map withoutReturn ++ [rest]).filter (· ≠ [])).map (mark ++ ·)

theorem withoutReturn_cases (line : Bytes) :
    line = withoutReturn line ++ [13] ∨ line = withoutReturn line ∧ line.getLast? ≠ some 13 := by
  unfold withoutReturn
  split
  next hreturn =>
    obtain ⟨front, rfl⟩ := List.getLast?_eq_some_iff.mp hreturn
    exact .inl (by rw [List.dropLast_concat])
  next hplain => exact .inr ⟨rfl, hplain⟩

theorem filterMap_logLine? (lines : List Bytes) :
    lines.filterMap logLine? = ((lines.map withoutReturn).filter (· ≠ [])).map (mark ++ ·) := by
  induction lines with
  | nil => rfl
  | cons line lines ih =>
      by_cases hempty : withoutReturn line = []
      · rw [List.filterMap_cons_none (by simp [logLine?, hempty]), ih]
        simp [hempty]
      · have hline : logLine? line = some (mark ++ withoutReturn line) := by simp [logLine?, hempty]
        rw [List.filterMap_cons_some hline, ih]
        simp [hempty]

theorem filterMap_append_finish (lines : List Bytes) (l : ErrorLines) :
    lines.filterMap logLine? ++ l.finish = logOf lines l.kept := by
  rw [filterMap_logLine?, logOf, List.filter_append, List.map_append, finish]
  congr 1
  by_cases hempty : l.kept = []
  · simp [hempty]
  · simp [hempty]

/-- Without the marks, the log is the text without the ends of its lines. -/
theorem unmark_logOf (lines : List Bytes) (rest : Bytes) :
    (logOf lines rest).flatMap (·.drop mark.length) = lines.flatMap withoutReturn ++ rest := by
  have hfull : ∀ contents : List Bytes,
      ((contents.filter (· ≠ [])).map (mark ++ ·)).flatMap (·.drop mark.length)
        = contents.flatten := by
    intro contents
    induction contents with
    | nil => rfl
    | cons content contents ih =>
        by_cases hempty : content = []
        · simpa [hempty] using ih
        · simpa [hempty] using ih
  rw [logOf, hfull, List.flatten_append, List.flatMap_def, List.flatten_singleton]

/-! ### Pieces of a text -/

/-- Takes in pieces one after another. -/
def feedAll (l : ErrorLines) : List Bytes → List Bytes × ErrorLines
  | [] => ([], l)
  | piece :: pieces =>
    ((l.feed piece).1 ++ ((l.feed piece).2.feedAll pieces).1, ((l.feed piece).2.feedAll pieces).2)

theorem feedAll_append (l : ErrorLines) (pieces more : List Bytes) :
    l.feedAll (pieces ++ more)
      = ((l.feedAll pieces).1 ++ ((l.feedAll pieces).2.feedAll more).1,
        ((l.feedAll pieces).2.feedAll more).2) := by
  induction pieces generalizing l with
  | nil => rfl
  | cons piece pieces ih => simp [feedAll, ih]

theorem ofPieces_eq (l : ErrorLines) (pieces : List Bytes) :
    l.ofPieces pieces = (l.feedAll pieces).1 ++ (l.feedAll pieces).2.finish := by
  induction pieces generalizing l with
  | nil => rfl
  | cons piece pieces ih => rw [ofPieces, ih, feedAll, List.append_assoc]

/-- **What is handed on for a piece is the log of the lines that end in it, and what is kept follows
them.** -/
theorem Lined.feed (h : Lined text lines l.kept) (piece : Bytes) :
    ∃ more, (l.feed piece).1 = more.filterMap logLine?
      ∧ Lined (text ++ piece) (lines ++ more) (l.feed piece).2.kept :=
  ⟨(cut (l.kept ++ piece)).1, rfl, h.append (lined_cut _)⟩

theorem Lined.feedAll (h : Lined text lines l.kept) (pieces : List Bytes) :
    ∃ more, (l.feedAll pieces).1 = more.filterMap logLine?
      ∧ Lined (text ++ pieces.flatten) (lines ++ more) (l.feedAll pieces).2.kept := by
  induction pieces generalizing text lines l with
  | nil => exact ⟨[], rfl, by simpa [ErrorLines.feedAll] using h⟩
  | cons piece pieces ih =>
      obtain ⟨ended, hfound, hkept⟩ := h.feed piece
      obtain ⟨more, hmore, hlined⟩ := ih hkept
      refine ⟨ended ++ more, ?_, ?_⟩
      · rw [ErrorLines.feedAll, hfound, hmore, List.filterMap_append]
      · rw [List.flatten_cons, ← List.append_assoc, ← List.append_assoc]
        exact hlined

/-- **The log of a stream is that of its text.** -/
theorem Lined.log_eq (h : Lined text lines rest) {pieces : List Bytes}
    (hpieces : pieces.flatten = text) :
    (ErrorLines.feedAll {} pieces).1 ++ (ErrorLines.feedAll {} pieces).2.finish
      = logOf lines rest := by
  obtain ⟨more, hfound, hlined⟩ := Lined.feedAll (l := {}) lined_nil pieces
  rw [List.nil_append, List.nil_append, hpieces] at hlined
  obtain ⟨rfl, hrest⟩ := h.unique hlined
  rw [hfound, filterMap_append_finish, hrest]

end ErrorLines

/-! ### Looks at the stream -/

namespace Host.World

/-- The pieces that have come in by now and were not read. -/
def arrived (w : World) (d : Descriptor) : List Bytes :=
  ((w.pending d).1.filter (·.1 ≤ w.now)).map (·.2)

/-- The stream has ended. -/
def isOver (w : World) (d : Descriptor) : Bool := (w.pending d).2.any (· ≤ w.now)

/-- The world in which these pieces have been read. -/
def reading (d : Descriptor) (pieces : List Bytes) (w : World) : World :=
  pieces.foldl (fun w piece => (take d piece.length w).2) w

/-- The world in which these lines have been logged, in this order. -/
def noting (lines : List Bytes) (w : World) : World :=
  lines.foldl (fun w line => (note line w).2) w

theorem noting_append (lines more : List Bytes) (w : World) :
    noting (lines ++ more) w = noting more (noting lines w) := List.foldl_append

theorem exists_append (path text : Bytes) (w : World) : ∃ tree written children, ∀ route taken,
    (append path text { w with route, taken }).2
      = { w with route, taken, tree, written, children } := by
  simp only [append, modify, modifyGet, MonadStateOf.modifyGet, StateT.modifyGet, pure]
  have hfiles : ∀ route taken, files { w with route, taken } = files w := fun _ _ => rfl
  have hput : ∀ place node, ∃ tree written children, ∀ route taken,
      put { w with route, taken } place node = { w with route, taken, tree, written, children } :=
    fun place node => ⟨(w.put place node).tree, (w.put place node).written,
      (w.put place node).children, fun _ _ => rfl⟩
  simp only [hfiles]
  split
  · exact hput _ _
  · exact hput _ _
  · exact ⟨_, _, _, fun _ _ => rfl⟩

theorem exists_note (line : Bytes) (w : World) : ∃ tree route written children, ∀ taken,
    (note line { w with taken }).2 = { w with taken, tree, route, written, children } := by
  have hdisk : ∀ taken, disk { w with taken } = disk w := fun _ => rfl
  simp only [note, get_bind, set_bind, hdisk]
  cases (w.route.write w.disk.canAppend line).2 with
  | none => exact ⟨_, _, _, _, fun _ => rfl⟩
  | some file =>
      obtain ⟨tree, written, children, happend⟩ := exists_append file.1 file.2 w
      exact ⟨_, _, _, _, fun taken => happend _ taken⟩

theorem exists_take (d : Descriptor) (count : Nat) (w : World) :
    ∃ taken, ∀ tree route written children,
      (take d count { w with tree, route, written, children }).2
        = { w with taken, tree, route, written, children } := by
  simp only [take, modify, modifyGet, MonadStateOf.modifyGet, StateT.modifyGet, pure]
  have hpipe : ∀ tree route written children,
      pipeOf { w with tree, route, written, children } d = pipeOf w d := fun _ _ _ _ => rfl
  simp only [hpipe]
  split
  · exact ⟨_, fun _ _ _ _ => rfl⟩
  · exact ⟨_, fun _ _ _ _ => rfl⟩

/-- It makes no difference whether something is read before a line is logged or after. -/
theorem take_note (d : Descriptor) (count : Nat) (line : Bytes) (w : World) :
    (take d count (note line w).2).2 = (note line (take d count w).2).2 := by
  obtain ⟨tree, route, written, children, hnote⟩ := exists_note line w
  obtain ⟨taken, htake⟩ := exists_take d count w
  have hnoted : (note line w).2 = { w with tree, route, written, children } := hnote w.taken
  have htaken : (take d count w).2 = { w with taken } := htake _ _ _ _
  rw [hnoted, htaken, hnote, htake]

theorem reading_note (d : Descriptor) (pieces : List Bytes) (line : Bytes) (w : World) :
    reading d pieces (note line w).2 = (note line (reading d pieces w)).2 := by
  induction pieces generalizing w with
  | nil => rfl
  | cons piece pieces ih =>
      rw [reading, List.foldl_cons, take_note]
      exact ih _

theorem reading_noting (d : Descriptor) (pieces lines : List Bytes) (w : World) :
    reading d pieces (noting lines w) = noting lines (reading d pieces w) := by
  induction lines generalizing w with
  | nil => rfl
  | cons line lines ih =>
      rw [noting, List.foldl_cons]
      exact (ih _).trans (congrArg (noting lines) (reading_note d pieces line w))

end Host.World

namespace Client

variable {c : Client} {d : Descriptor} {w : World}

/-- What one look at the stream has logged, and the client behind it. -/
def look (c : Client) (w : World) : List Bytes × Client :=
  match c.errors with
  | none => ([], c)
  | some d =>
    let (found, lines) := c.lines.feedAll (w.arrived d)
    if w.isOver d then (found ++ lines.finish, { c with errors := none, lines := {} })
    else (found, { c with lines })

theorem look_of_open (h : c.errors = some d) (hopen : w.isOver d = false) :
    c.look w = ((c.lines.feedAll (w.arrived d)).1,
      { c with lines := (c.lines.feedAll (w.arrived d)).2 }) := by
  simp only [look, h, hopen, Bool.false_eq_true, if_false]

theorem look_of_over (h : c.errors = some d) (hover : w.isOver d = true) :
    c.look w = ((c.lines.feedAll (w.arrived d)).1 ++ (c.lines.feedAll (w.arrived d)).2.finish,
      { c with errors := none, lines := {} }) := by
  simp only [look, h, hover, if_true]

/-- Logs lines. -/
def noteEach (lines : List Bytes) : ClientM Unit := do
  for line in lines do World.note line

/-- Takes in pieces. -/
def takeEach (d : Descriptor) (arrivals : List (Host.Time × Bytes)) : ClientM Unit := do
  for (_, piece) in arrivals do
    let (found, lines) := (← get).lines.feed piece
    modify ({ · with lines })
    World.take d piece.length
    for line in found do World.note line

/-- Closes the stream. -/
def endErrors (d : Descriptor) : ClientM Unit := do
  noteEach (← get).lines.finish
  World.close d
  modify ({ · with errors := none, lines := {} })

theorem noteEach_cons (line : Bytes) (lines : List Bytes) :
    noteEach (line :: lines) = (do World.note line; noteEach lines) := by
  simp only [noteEach, List.forIn_cons, bind_assoc, pure_bind]

theorem takeEach_cons (time : Host.Time) (piece : Bytes) (arrivals : List (Host.Time × Bytes)) :
    takeEach d ((time, piece) :: arrivals) = (do
      let l := (← get).lines
      modify ({ · with lines := (l.feed piece).2 })
      World.take d piece.length
      noteEach (l.feed piece).1
      takeEach d arrivals) := by
  simp only [takeEach, noteEach, List.forIn_cons, bind_assoc, pure_bind]

/-- What is done after an action is done where that has led. -/
theorem run_bind_of {α β : Type} {act : ClientM α} {next : α → ClientM β} {a : α} {c c' : Client}
    {w w' : World} (h : (act.run c).run w = ((a, c'), w')) :
    ((act >>= next).run c).run w = ((next a).run c').run w' := by
  rw [StateT.run_bind, StateT.run_bind, h]
  rfl

theorem noteEach_run (lines : List Bytes) (c : Client) (w : World) :
    ((noteEach lines).run c).run w = (((), c), w.noting lines) := by
  induction lines generalizing w with
  | nil => rfl
  | cons line lines ih =>
      rw [noteEach_cons]
      exact ih (World.note line w).2

theorem takeEach_run (arrivals : List (Host.Time × Bytes)) (c : Client) (w : World) :
    ((takeEach d arrivals).run c).run w
      = (((), { c with lines := (c.lines.feedAll (arrivals.map (·.2))).2 }),
        (w.reading d (arrivals.map (·.2))).noting (c.lines.feedAll (arrivals.map (·.2))).1) := by
  induction arrivals generalizing c w with
  | nil => rfl
  | cons arrival arrivals ih =>
      obtain ⟨time, piece⟩ := arrival
      have hfirst : ((takeEach d ((time, piece) :: arrivals)).run c).run w
          = ((takeEach d arrivals).run { c with lines := (c.lines.feed piece).2 }).run
            ((World.take d piece.length w).2.noting (c.lines.feed piece).1) := by
        rw [takeEach_cons]
        show ((noteEach (c.lines.feed piece).1 >>= fun _ => takeEach d arrivals).run _).run _ = _
        rw [run_bind_of (noteEach_run _ _ _)]
        rfl
      rw [hfirst, ih, World.reading_noting, ← World.noting_append]
      rfl

theorem endErrors_run (d : Descriptor) (c : Client) (w : World) :
    ((endErrors d).run c).run w
      = (((), { c with errors := none, lines := {} }),
        (World.close d (w.noting c.lines.finish)).2) := by
  show ((noteEach c.lines.finish >>= fun _ => do
    World.close d
    modify ({ · with errors := none, lines := {} })).run c).run w = _
  rw [run_bind_of (noteEach_run _ _ _)]
  rfl

theorem logErrors_eq : logErrors = (do
    let c ← get
    match c.errors with
    | none => pure ()
    | some d =>
      let w ← getThe World
      takeEach d ((w.pending d).1.filter (·.1 ≤ w.now))
      if w.isOver d then endErrors d) := by
  simp only [logErrors, takeEach, endErrors, noteEach, bind_assoc, pure_bind]
  rfl

/-- **What a look logs is what `look` says, and so is the client behind it.** -/
theorem logErrors_run (h : c.errors = some d) :
    (logErrors.run c).run w = (((), (c.look w).2),
      if w.isOver d then (World.close d ((w.reading d (w.arrived d)).noting (c.look w).1)).2
      else (w.reading d (w.arrived d)).noting (c.look w).1) := by
  have hsteps : (logErrors.run c).run w
      = ((do
          takeEach d ((w.pending d).1.filter (·.1 ≤ w.now))
          if w.isOver d then endErrors d).run c).run w := by
    rw [logErrors_eq]
    cases c
    cases h
    rfl
  rw [hsteps, run_bind_of (takeEach_run _ _ _)]
  cases hover : w.isOver d with
  | true =>
      rw [if_pos rfl, if_pos rfl, endErrors_run, ← World.noting_append, look_of_over h hover]
      rfl
  | false =>
      rw [look_of_open h hover]
      rfl

/-- What looks log that are had one after another, each in a world of its own. -/
def listen (c : Client) : List World → List Bytes
  | [] => []
  | w :: ws => (c.look w).1 ++ (c.look w).2.listen ws

/-- **Looks one after another log what one would that came upon everything.** -/
theorem listen_eq {ws : List World} (h : c.errors = some d)
    (hopen : ∀ earlier ∈ ws, earlier.isOver d = false) (hover : w.isOver d = true) :
    c.listen (ws ++ [w])
      = (c.lines.feedAll ((ws ++ [w]).flatMap (·.arrived d))).1
        ++ (c.lines.feedAll ((ws ++ [w]).flatMap (·.arrived d))).2.finish := by
  induction ws generalizing c with
  | nil => simp [listen, look_of_over h hover]
  | cons first ws ih =>
      have hfirst := look_of_open h (hopen first List.mem_cons_self)
      have hrest := ih (c := { c with lines := (c.lines.feedAll (first.arrived d)).2 }) h
        fun earlier hearlier => hopen earlier (List.mem_cons_of_mem _ hearlier)
      rw [List.cons_append, listen, hfirst]
      dsimp only
      rw [hrest, List.flatMap_cons, ErrorLines.feedAll_append, List.append_assoc]

end Client

open ErrorLines (Lined logOf mark withoutReturn)

/--
**What a backend writes to standard error is logged line by line, however it arrives.**

* A look logs the lines that `look` says, in that order, of the pieces that have come in.
* A text has its lines in one way only.  Its log has a line for each that is not empty without its
  carriage return, and one for the rest if that is not empty.  But for the marks that is the text
  without the ends of its lines.
* This is what is handed on if the text arrives in pieces, wherever they end.
* It is what a client logs that looks at the stream until it has ended, whenever it looks.
-/
theorem errors_logged_by_line :
    (∀ (c : Client) (d : Descriptor) (w : World), c.errors = some d →
      (Client.logErrors.run c).run w = (((), (c.look w).2),
        if w.isOver d then (World.close d ((w.reading d (w.arrived d)).noting (c.look w).1)).2
        else (w.reading d (w.arrived d)).noting (c.look w).1))
      ∧ ∀ text, ∃ lines rest, Lined text lines rest
        ∧ (∀ lines' rest', Lined text lines' rest' → lines' = lines ∧ rest' = rest)
        ∧ (∀ line ∈ lines, line = withoutReturn line ++ [13]
          ∨ line = withoutReturn line ∧ line.getLast? ≠ some 13)
        ∧ (logOf lines rest).flatMap (·.drop mark.length) = lines.flatMap withoutReturn ++ rest
        ∧ (∀ pieces : List Bytes, pieces.flatten = text →
          ErrorLines.ofPieces {} pieces = logOf lines rest)
        ∧ ∀ (c : Client) (d : Descriptor) (ws : List World) (w : World),
          c.errors = some d → c.lines = {} → (∀ earlier ∈ ws, earlier.isOver d = false) →
          w.isOver d = true → ((ws ++ [w]).flatMap (·.arrived d)).flatten = text →
            c.listen (ws ++ [w]) = logOf lines rest := by
  refine ⟨fun c d w h => Client.logErrors_run h, fun text => ?_⟩
  obtain ⟨lines, rest, hlined⟩ := ErrorLines.exists_lined text
  refine ⟨lines, rest, hlined, fun lines' rest' h => hlined.unique h,
    fun line _ => ErrorLines.withoutReturn_cases line, ErrorLines.unmark_logOf lines rest, ?_, ?_⟩
  · intro pieces hpieces
    rw [ErrorLines.ofPieces_eq, hlined.log_eq hpieces]
  · intro c d ws w herrors hlines hopen hover htext
    rw [Client.listen_eq herrors hopen hover, hlines, hlined.log_eq htext]

/-- A line that ends between two looks, with its carriage return in the first piece. -/
theorem errors_logged_by_line_across_looks :
    let child : Host.Child :=
      { launch := ⟨100, ⟨[], []⟩, [], [], false, {}, 0⟩
        pipes := (none, 0, 1)
        life :=
          { written := [(1, 1, ascii "a\r"), (5, 1, ascii "\nb")]
            released := [(.output 1, some 6)] } }
    let w : World :=
      { World.start {} [] ⟨[]⟩ with descriptors := [(3, .reading 1)], children := [child] }
    let c : Client := { Client.create { backend := { executable := [] } } with errors := some 3 }
    let first := { w with now := 2 }
    let second := { w with now := 7, taken := [(1, 2)] }
    c.errors = some 3 ∧ c.lines = {} ∧ first.isOver 3 = false ∧ second.isOver 3 = true
      ∧ [first, second].flatMap (·.arrived 3) = [ascii "a\r", ascii "\nb"]
      ∧ c.listen [first, second] = [ascii "[rust-analyzer] a", ascii "[rust-analyzer] b"] := by
  intro child w c first second
  have hopen : first.isOver 3 = false := rfl
  have hover : second.isOver 3 = true := rfl
  have harrived : [first, second].flatMap (·.arrived 3) = [ascii "a\r", ascii "\nb"] := rfl
  obtain ⟨lines, rest, -, hunique, -, -, -, hlisten⟩ := errors_logged_by_line.2 (ascii "a\r\nb")
  have hlined : ErrorLines.Lined (ascii "a\r\nb") [ascii "a\r"] (ascii "b") :=
    ⟨rfl, by decide, by decide⟩
  obtain ⟨rfl, rfl⟩ := hunique _ _ hlined
  refine ⟨rfl, rfl, hopen, hover, harrived, ?_⟩
  exact hlisten c 3 [first] second rfl rfl (by simpa using hopen) hover rfl

end AnalyzerBridge
