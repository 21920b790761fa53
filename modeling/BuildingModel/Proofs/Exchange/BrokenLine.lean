import BuildingModel.Proofs.Exchange.Boundary
import BuildingModel.Proofs.Exchange.RoundTrip
import BuildingModel.Proofs.ProblemLog

/-!
# Broken lines

A line that opens an instance and cannot be read costs one problem and nothing else. If it has no
semicolon, cutting ends at the line after it, which opens an instance; otherwise it is a statement of its
own that is no instance. Either way reading goes on at the line after it, and the problem has the number
that the line begins with.
-/

namespace BuildingModel.Exchange

open Text Number

/-- A line `#1=…` that is no instance: it has no semicolon, or one at its end and cannot be read. It has
no string literal and no comment, which could hide the next line. -/
structure BrokenLine (number : Digits) (line : List Char) : Prop where
  opens : ∃ body, line = '#' :: (number.chars ++ '=' :: body)
  no_apostrophe : '\'' ∉ line
  no_newline : '\n' ∉ line
  no_comment : ¬ ['/', '*'] <:+: line
  broken : ';' ∉ line ∨
    ∃ body e, line = body ++ [';'] ∧ ';' ∉ body ∧ RawInstance.parse line 0 = .error e

/-! ## Cutting -/

/-- Without semicolons, line ends, literals and comments there is nothing to stop at. -/
lemma cut_of_no_comment {t r : List Char} (hsemicolon : ';' ∉ t) (hquote : '\'' ∉ t) (hline : '\n' ∉ t)
    (hcomment : ¬ ['/', '*'] <:+: t) (hr : r.head? ≠ some '*') (taken : List Char) :
    cut .plain taken (t ++ r) = cut .plain (t.reverse ++ taken) r := by
  induction t generalizing taken with
  | nil => rfl
  | cons c t ih =>
    rw [List.mem_cons, not_or] at hsemicolon hquote hline
    have hopens : opensComment c (t ++ r) = false := by
      rw [opensComment, Bool.and_eq_false_iff, decide_eq_false_iff_not, decide_eq_false_iff_not]
      by_cases hc : c = '/'
      · subst hc
        right
        cases t with
        | nil => exact hr
        | cons d t =>
          intro hd
          cases hd
          exact hcomment (List.prefix_append ['/', '*'] t).isInfix
      · exact .inl hc
    have hmode : Mode.step .plain c (t ++ r) = .plain := by
      rw [Mode.step, if_neg (Ne.symm hquote.1), hopens]
      rfl
    have hrest : ¬ ['/', '*'] <:+: t := fun h => hcomment (h.trans (List.suffix_cons c t).isInfix)
    rw [List.cons_append, cut, if_neg fun h => hsemicolon.1 h.2.symm, if_neg fun h => hline.1 h.2.1.symm,
      hmode, ih hsemicolon.2 hquote.2 hline.2 hrest, List.reverse_cons, List.append_assoc,
      List.singleton_append]

/-- A text before a line that opens an instance is cut off without a semicolon. -/
lemma next?_of_newInstance {t s : List Char} (hbegins : Begins t)
    (hcut : cut .plain [] (t ++ '\n' :: s) = cut .plain t.reverse ('\n' :: s))
    (hopens : opensInstance s = true) (position : Nat) :
    Cursor.next? ⟨position, t ++ '\n' :: s⟩ =
      some (⟨position, trimEnd t, false⟩, ⟨position + byteLength t.reverse + 1, s⟩) := by
  have hpiece : cut .plain [] (t ++ '\n' :: s) = ⟨t.reverse, .newInstance, s⟩ := by
    rw [hcut, cut, if_neg (by simp), if_pos ⟨rfl, rfl, hopens⟩]
  simp only [Cursor.next?, skipTrivia_of_begins hbegins]
  rw [if_neg (by simp)]
  simp only [Cursor.statementHere, hpiece, List.reverse_reverse]

/-- A number and an equals sign open an instance. -/
lemma opensInstance_number (number : Digits) (r : List Char) :
    opensInstance ('#' :: (number.chars ++ '=' :: r)) = true := by
  rw [opensInstance_hash, number.run? (stops_cons.mpr rfl)]
  rfl

/-- The next written instance is on a line that opens an instance. -/
lemma opensInstance_writeLines (showReal : Float → List Char) (e : RawInstance) (es : List RawInstance)
    (r : List Char) : opensInstance (writeLines showReal (e :: es) ++ r) = true := by
  rw [writeLines, List.flatMap_cons, List.append_assoc, List.append_assoc, RawInstance.write,
    List.cons_append, List.append_assoc]
  exact opensInstance_number (.ofNat e.id.toNat) _

/-! ## The number of a broken line -/

/-- A visible character keeps what stands before it from being trimmed. -/
lemma trimEnd_append_cons {c : Char} (hc : isBlank c = false) (s t : List Char) :
    trimEnd (s ++ c :: t) = s ++ c :: trimEnd t := by
  have hdrop : (c :: s.reverse).dropWhile isBlank = c :: s.reverse :=
    List.dropWhile_cons_of_neg (by rw [hc]; decide)
  rw [trimEnd, trimEnd, List.reverse_append, List.reverse_cons, List.append_assoc, List.singleton_append,
    List.dropWhile_append]
  split
  · rename_i hempty
    rw [hdrop, List.isEmpty_iff.mp hempty]
    simp
  · simp

/-- The number at the start of a line is read. -/
lemma leadingId_append (number : Digits) {id : EntityId} (hid : digitsValue number.chars = id.toNat)
    {r : List Char} (hr : Stops Char.isDigit r) : leadingId ('#' :: (number.chars ++ r)) = some id := by
  have hskip : skipBlanks ('#' :: (number.chars ++ r)) = '#' :: (number.chars ++ r) := rfl
  rw [leadingId, hskip]
  simp only
  rw [entityId?_append number hr hid, Option.map_some]

/-- Blanks at the end of a line are no part of a statement that has no semicolon. -/
lemma leadingId_trimEnd (number : Digits) {id : EntityId} (hid : digitsValue number.chars = id.toNat)
    (body : List Char) : leadingId (trimEnd ('#' :: (number.chars ++ '=' :: body))) = some id := by
  have htrim := trimEnd_append_cons (c := '=') rfl ('#' :: number.chars) body
  rw [List.cons_append, List.cons_append] at htrim
  rw [htrim]
  exact leadingId_append number hid (stops_cons.mpr rfl)

/-- Trimming adds no characters. -/
lemma mem_of_mem_trimEnd {c : Char} {t : List Char} (hc : c ∈ trimEnd t) : c ∈ t := by
  rw [trimEnd, List.mem_reverse] at hc
  exact List.mem_reverse.mp ((List.dropWhile_sublist _).mem hc)

/-- Without a semicolon a statement is no keyword. -/
lemma keyword?_of_not_mem {text : List Char} (hsemicolon : ';' ∉ text) (offset : Nat) (terminated : Bool) :
    Statement.keyword? ⟨offset, text, terminated⟩ = none := by
  rw [Statement.keyword?]
  split
  · rename_i before heq
    have hlast : ';' ∈ trim text := by
      rw [← List.mem_reverse, heq]
      exact List.mem_cons_self
    exact absurd ((List.dropWhile_sublist _).mem (mem_of_mem_trimEnd hlast)) hsemicolon
  · rfl

/-! ## Reading on after a broken line -/

/-- A broken line leaves one problem behind, with the number of the line if there can be such an entity. -/
structure LeftBehind (number : Digits) (problem : Problem) : Prop where
  kind : problem.kind = .entityParse
  entity : ∀ id : EntityId, digitsValue number.chars = id.toNat → problem.entity = some id

/-- A statement that is a problem adds it to the log. -/
lemma ReadState.run_problem (p : ReadState) {here there : Cursor} {st : Statement} {entity : Option EntityId}
    {message : String} (hnext : here.next? = some (st, there)) (hkeyword : st.keyword? = none)
    (hact : st.act p.here = statementProblem entity message) :
    p.run here = ReadState.run { p with log := p.log.push ⟨.entityParse, entity, message⟩ } there := by
  have hends : st.endsFile = false := by
    rw [Statement.endsFile, hkeyword]
    rfl
  rw [p.run_next hnext hends, ReadState.step, hact]
  rfl

/-- A line that is cut off whole and is no instance leaves one problem behind. -/
lemma run_unread {t r : List Char} (hunread : ∀ raw, ¬ InstanceText raw (('#' :: t) ++ [';']))
    (hcut : cut .plain [] (('#' :: t) ++ ';' :: '\n' :: r) =
      ⟨';' :: ('#' :: t).reverse, .semicolon, '\n' :: r⟩)
    {p : ReadState} (hdata : p.here = some .data) (position : Nat) :
    ∃ finish problem, problem.kind = .entityParse ∧ problem.entity = leadingId (('#' :: t) ++ [';']) ∧
      p.run ⟨position, ('#' :: t) ++ ';' :: '\n' :: r⟩ =
        ReadState.run { p with log := p.log.push problem } ⟨finish, r⟩ := by
  have hnext := next?_of_cut (begins_hash t) hcut position
  have hkeyword : Statement.keyword? ⟨position, ('#' :: t) ++ [';'], true⟩ = none :=
    keyword?_eq_none rfl rfl position
  obtain ⟨e, herror⟩ : ∃ e, RawInstance.parse (('#' :: t) ++ [';']) position = .error e := by
    cases hparse : RawInstance.parse (('#' :: t) ++ [';']) position with
    | error e => exact ⟨e, rfl⟩
    | ok raw => exact absurd (parse_eq_ok_iff.mp hparse) (hunread raw)
  have hact : Statement.act ⟨position, ('#' :: t) ++ [';'], true⟩ p.here =
      statementProblem (leadingId (('#' :: t) ++ [';'])) (ReadError.ofSyntax e).message := by
    rw [Statement.act.eq_def, hkeyword, hdata]
    simp only [dataAct, herror, if_true]
  have hrun := p.run_problem hnext hkeyword hact
  rw [ReadState.run_newline] at hrun
  exact ⟨_, _, rfl, rfl, hrun⟩

namespace BrokenLine

variable {number : Digits} {line s : List Char}

/-- A statement may begin with a broken line. -/
lemma begins (hline : BrokenLine number line) : Begins line := by
  obtain ⟨body, rfl⟩ := hline.opens
  exact ⟨List.cons_ne_nil _ _, stops_cons.mpr rfl, stops_cons.mpr rfl⟩

/-- The next line ends a statement without a semicolon. -/
lemma run_unterminated (hline : BrokenLine number line) (hsemicolon : ';' ∉ line) {p : ReadState}
    (hdata : p.here = some .data) (hopens : opensInstance s = true) (position : Nat) :
    ∃ finish problem, LeftBehind number problem ∧
      p.run ⟨position, line ++ '\n' :: s⟩ =
        ReadState.run { p with log := p.log.push problem } ⟨finish, s⟩ := by
  have hcut := cut_of_no_comment hsemicolon hline.no_apostrophe hline.no_newline hline.no_comment
    (r := '\n' :: s) (by simp) []
  rw [List.append_nil] at hcut
  have hnext := next?_of_newInstance hline.begins hcut hopens position
  have hkeyword : Statement.keyword? ⟨position, trimEnd line, false⟩ = none :=
    keyword?_of_not_mem (fun h => hsemicolon (mem_of_mem_trimEnd h)) _ _
  have hact : Statement.act ⟨position, trimEnd line, false⟩ p.here =
      statementProblem (leadingId (trimEnd line)) s!"unterminated statement at byte {position}" := by
    rw [Statement.act.eq_def, hkeyword, hdata]
    rfl
  refine ⟨_, _, ⟨rfl, ?_⟩, p.run_problem hnext hkeyword hact⟩
  intro id hid
  obtain ⟨body, rfl⟩ := hline.opens
  exact leadingId_trimEnd number hid body

/-- A statement that cannot be read ends at its own semicolon. -/
lemma run_unreadable {body : List Char} {e : SyntaxError} (hline : BrokenLine number (body ++ [';']))
    (hbody : ';' ∉ body) (herror : RawInstance.parse (body ++ [';']) 0 = .error e) {p : ReadState}
    (hdata : p.here = some .data) (position : Nat) :
    ∃ finish problem, LeftBehind number problem ∧
      p.run ⟨position, body ++ [';'] ++ '\n' :: s⟩ =
        ReadState.run { p with log := p.log.push problem } ⟨finish, s⟩ := by
  obtain ⟨rest, hopens⟩ := hline.opens
  obtain ⟨t, rfl⟩ : ∃ t, body = '#' :: t := by
    cases body with
    | nil => cases hopens
    | cons c t => exact ⟨t, congrArg (· :: t) (List.cons.inj hopens).1⟩
  have hinside : '#' :: t <+: ('#' :: t) ++ [';'] := List.prefix_append _ _
  have hcut := cut_of_no_comment hbody (fun h => hline.no_apostrophe (hinside.mem h))
    (fun h => hline.no_newline (hinside.mem h)) (fun h => hline.no_comment (h.trans hinside.isInfix))
    (r := ';' :: '\n' :: s) (by simp) []
  rw [List.append_nil, cut.eq_2 _ _ ';', if_pos ⟨rfl, rfl⟩] at hcut
  have hunread : ∀ raw, ¬ InstanceText raw (('#' :: t) ++ [';']) := by
    intro raw hraw
    rw [parse_eq_ok_iff.mpr hraw] at herror
    cases herror
  obtain ⟨finish, problem, hkind, hentity, hrun⟩ := run_unread hunread hcut hdata position
  refine ⟨finish, problem, ⟨hkind, ?_⟩, by rwa [List.append_assoc, List.singleton_append]⟩
  intro id hid
  rw [hentity, hopens]
  exact leadingId_append number hid (stops_cons.mpr rfl)

/-- Reading goes on at the line after a broken one, with one problem more. -/
lemma run (hline : BrokenLine number line) {p : ReadState} (hdata : p.here = some .data)
    (hopens : opensInstance s = true) (position : Nat) :
    ∃ finish problem, LeftBehind number problem ∧
      p.run ⟨position, line ++ '\n' :: s⟩ =
        ReadState.run { p with log := p.log.push problem } ⟨finish, s⟩ := by
  rcases hline.broken with hsemicolon | ⟨body, e, rfl, hbody, herror⟩
  · exact hline.run_unterminated hsemicolon hdata hopens position
  · exact hline.run_unreadable hbody herror hdata position

end BrokenLine

end BuildingModel.Exchange

namespace BuildingModel

open Exchange Text Number

/-- A written file with one more line between its instances. -/
def writeFileAround (showReal : Float → List Char) (before : List RawInstance) (line : List Char)
    (after : List RawInstance) : List Char :=
  keywordLine "ISO-10303-21" (keywordLine "DATA"
    (writeLines showReal before ++ (line ++ '\n' :: (writeLines showReal after ++
      keywordLine "ENDSEC" ("END-ISO-10303-21".toList ++ [';'])))))

/-- The state after a file with a broken line: all entities, and one problem. -/
lemma readStatements_writeFileAround {showReal : Float → List Char} {before after : List RawInstance}
    {e : RawInstance} (hes : ∀ x ∈ before ++ e :: after, x.Writable showReal)
    (hids : ((before ++ e :: after).map (·.id)).Nodup) {number : Digits} {line : List Char}
    (hline : BrokenLine number line) (tail : List Char) (limit : Nat) :
    ∃ problem, LeftBehind number problem ∧
      readStatements (writeFileAround showReal before line (e :: after) ++ tail) limit =
        { signed := true, hasData := true, log := (ProblemLog.empty limit).push problem,
          table := ((before ++ e :: after).map (·.entity)).foldl EntityTable.push {} } := by
  have htext : writeFileAround showReal before line (e :: after) ++ tail =
      keywordLine "ISO-10303-21" (keywordLine "DATA" (writeLines showReal before ++
        (line ++ '\n' :: (writeLines showReal (e :: after) ++
          keywordLine "ENDSEC" ("END-ISO-10303-21".toList ++ ';' :: tail))))) := by
    simp [writeFileAround, keywordLine]
  rw [List.map_append, List.nodup_append] at hids
  obtain ⟨hbefore, hafter, hapart⟩ := hids
  rw [readStatements_eq, htext]
  obtain ⟨first, hopened⟩ := run_opening limit (writeLines showReal before ++
    (line ++ '\n' :: (writeLines showReal (e :: after) ++
      keywordLine "ENDSEC" ("END-ISO-10303-21".toList ++ ';' :: tail))))
  obtain ⟨broken, hlines⟩ := run_writeLines (fun x hx => hes x (List.mem_append_left _ hx)) hbefore
    (p := { signed := true, hasData := true, here := some .data, log := .empty limit }) rfl
    (fun e _ => Std.HashMap.contains_empty) first
    (line ++ '\n' :: (writeLines showReal (e :: after) ++
      keywordLine "ENDSEC" ("END-ISO-10303-21".toList ++ ';' :: tail)))
  obtain ⟨next, problem, hleft, hbroken⟩ := hline.run
    (p := { signed := true, hasData := true, here := some .data, log := .empty limit
            table := (before.map (·.entity)).foldl EntityTable.push {} }) rfl
    (opensInstance_writeLines showReal e after
      (keywordLine "ENDSEC" ("END-ISO-10303-21".toList ++ ';' :: tail))) broken
  have hnew : ∀ x ∈ e :: after,
      ((before.map (·.entity)).foldl EntityTable.push {}).contains x.id = false := by
    intro x hx
    rw [EntityTable.contains_foldl_push, Bool.or_eq_false_iff]
    refine ⟨?_, Std.HashMap.contains_empty⟩
    rw [List.any_eq_false]
    intro y hy
    obtain ⟨z, hz, rfl⟩ := List.mem_map.mp hy
    rw [beq_iff_eq]
    exact hapart z.id (List.mem_map_of_mem hz) x.id (List.mem_map_of_mem hx)
  obtain ⟨last, hrest⟩ := run_writeLines (fun x hx => hes x (List.mem_append_right _ hx)) hafter
    (p := { signed := true, hasData := true, here := some .data
            log := (ProblemLog.empty limit).push problem
            table := (before.map (·.entity)).foldl EntityTable.push {} }) rfl hnew next
    (keywordLine "ENDSEC" ("END-ISO-10303-21".toList ++ ';' :: tail))
  refine ⟨problem, hleft, ?_⟩
  rw [hopened, hlines, hbroken, hrest, run_closing, List.map_append, List.foldl_append]

/-- A broken line costs one problem and nothing else: the file has the same entities in the same order as
without the line, and its only problem has the number that the line begins with. -/
theorem ExchangeFile.parse_brokenLine (showReal : Float → List Char) (before : List RawInstance)
    (e : RawInstance) (after : List RawInstance)
    (hes : ∀ x ∈ before ++ e :: after, x.Writable showReal)
    (hids : ((before ++ e :: after).map (·.id)).Nodup) (number : Digits) (line : List Char)
    (hline : BrokenLine number line) (tail : List Char) (limit : Nat) :
    ∃ whole file problem,
      ExchangeFile.parse (writeFile showReal (before ++ e :: after) ++ tail) limit = .ok whole ∧
      ExchangeFile.parse (writeFileAround showReal before line (e :: after) ++ tail) limit = .ok file ∧
      file.entities = whole.entities ∧
      file.entities = (before ++ e :: after).map (fun x => ⟨x.id, Kind.ofName x.typeName, x.params⟩) ∧
      file.log = (ProblemLog.empty limit).push problem ∧ file.log.total = 1 ∧
      problem.kind = .entityParse ∧
      ∀ id : EntityId, digitsValue number.chars = id.toNat → problem.entity = some id := by
  have hwhole := readStatements_writeFile hes hids tail limit
  obtain ⟨problem, hleft, hread⟩ := readStatements_writeFileAround hes hids hline tail limit
  refine ⟨⟨{}, ((before ++ e :: after).map (·.entity)).foldl EntityTable.push {}, .empty limit⟩,
    ⟨{}, ((before ++ e :: after).map (·.entity)).foldl EntityTable.push {},
      (ProblemLog.empty limit).push problem⟩,
    problem, ?_, ?_, rfl, ?_, rfl, ?_, hleft.kind, hleft.entity⟩
  · simp only [ExchangeFile.parse, hwhole, if_true]
  · simp only [ExchangeFile.parse, hread, if_true]
  · rw [ExchangeFile.entities, EntityTable.entities_foldl_push]
    rfl
  · rw [ProblemLog.total_push, ProblemLog.total_empty]
    rfl

/-- The start of a wall, with open brackets, an open binary, a slash and blanks at the end. -/
def tornLine : List Char := ['#', '0', '7', '=', 'W', '(', '(', '"', ',', '/', ' ', '\t', '\r']

/-- The torn line is broken. -/
lemma tornLine_broken : BrokenLine ⟨['0', '7'], by simp, by simp⟩ tornLine where
  opens := ⟨['W', '(', '(', '"', ',', '/', ' ', '\t', '\r'], rfl⟩
  no_apostrophe := by decide
  no_newline := by decide
  no_comment := by decide
  broken := .inl (by decide)

/-- The instances around the torn line are read, and it leaves one problem behind. -/
theorem ExchangeFile.parse_brokenLine_tornLine :
    ∃ whole file problem,
      ExchangeFile.parse (writeFile (fun _ => ['1', '.', '5']) hardInstances ++ ['\n']) 50 = .ok whole ∧
      ExchangeFile.parse (writeFileAround (fun _ => ['1', '.', '5']) (hardInstances.take 1) tornLine
        (hardInstances.drop 1) ++ ['\n']) 50 = .ok file ∧
      file.entities = whole.entities ∧
      file.entities = hardInstances.map (fun x => ⟨x.id, Kind.ofName x.typeName, x.params⟩) ∧
      file.log = (ProblemLog.empty 50).push problem ∧ file.log.total = 1 ∧
      problem.kind = .entityParse ∧ problem.entity = some 7 := by
  obtain ⟨whole, file, problem, hwhole, hfile, hsame, hentities, hlog, htotal, hkind, hentity⟩ :=
    ExchangeFile.parse_brokenLine _ (hardInstances.take 1) ⟨0, "-", []⟩ [] hardInstances_writable
      (by decide) _ tornLine tornLine_broken ['\n'] 50
  exact ⟨whole, file, problem, hwhole, hfile, hsame, hentities, hlog, htotal, hkind, hentity 7 (by decide)⟩

end BuildingModel
