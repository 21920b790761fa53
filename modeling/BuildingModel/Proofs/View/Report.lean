import BuildingModel.View.Load
import BuildingModel.Proofs.Exchange.Outcome
import BuildingModel.Proofs.Exchange.RoundTrip
import BuildingModel.Proofs.Extract.Completeness
import BuildingModel.Proofs.Linked.Problems

/-!
# The report of a load

A load that nobody stops fails only on a text that is no exchange file, or if a candidate overflows. Otherwise its
report accounts for the file (`LoadedModel.Reports`): the objects it counts are those of the scene, every candidate is
counted once, and the problems are those of reading, of linking and of extraction, one after the other.

Each stage hands on a log that `ProblemLog.Tells` what was raised up to there; the report of the load
follows by putting the stages together.
-/

namespace BuildingModel

open Exchange Text

/-! ## Reading -/

/-- A text cannot be read for want of a data section or of a signature. -/
lemma ExchangeFile.parse_eq_error {text : List Char} {limit : Nat} {e : ReadError}
    (hparse : ExchangeFile.parse text limit = .error e) : e = .notExchangeFile ∨ e = .noDataSection := by
  simp only [ExchangeFile.parse] at hparse
  split at hparse
  · cases hparse
  · split at hparse
    · cases hparse
      exact .inr rfl
    · cases hparse
      exact .inl rfl

/-- The log of a file tells what has become of its statements. -/
lemma ExchangeFile.tells_parse {text : List Char} {limit : Nat} {file : ExchangeFile}
    (hparse : ExchangeFile.parse text limit = .ok file) :
    ∃ fs, ComesAll (fileStatements text) fs ∧ file.log.Tells limit (fs.filterMap (·.problem?)) := by
  obtain ⟨fs, hall, hr⟩ := exists_recorded limit (fileStatements text)
  rw [← readStatements] at hr
  refine ⟨fs, hall, ?_⟩
  cases parse_eq_ok hparse
  rw [hr.log]
  exact (ProblemLog.tells_empty limit).pushAll _

/-! ## Extraction -/

namespace LinkedModel

/-- The problems of the candidates that are sound and have a rule but give no shape. -/
def failures (m : LinkedModel) (s : ExtractionSettings) (table : MethodTable) : List Problem :=
  (m.workResults s table).filterMap (·.problem?)

/-- The log of an extraction tells what could not be extracted. -/
lemma tells_extraction (m : LinkedModel) (s : ExtractionSettings) (table : MethodTable) :
    (m.extraction s table).log.Tells s.messageLimit (m.failures s table) :=
  (ProblemLog.tells_empty s.messageLimit).pushAll _

end LinkedModel

/-! ## Loading -/

namespace LoadedModel

/-- The report of a load accounts for the file that the text was read as. -/
structure Reports (m : LoadedModel) (text : List Char) (file : ExchangeFile) (s : ViewSettings) : Prop where
  objects : m.report.objects = m.report.extraction.extracted
  shown : m.scene.objectCount = m.report.extraction.extracted
  candidates : m.report.extraction.candidates = m.report.extraction.extracted + m.report.extraction.failed +
    m.report.extraction.skippedUnsupported + m.report.extraction.excludedBroken
  entities : m.report.entities = file.entities.length
  /-- Problems are counted in 64 bits. -/
  total : m.report.log.total = file.log.total + .ofNat (file.entities.countP file.dangles) +
    .ofNat file.cycleReports.length + .ofNat m.report.extraction.failed
  /-- The first of what reading, linking and extraction have raised, in this order. -/
  messages : ∃ fs, ComesAll (fileStatements text) fs ∧
    file.log.total = .ofNat (fs.filterMap (·.problem?)).length ∧
    m.report.log.messages = ((fs.filterMap (·.problem?) ++ file.linkProblems ++
      file.link.failures s.extraction .standard).take s.maxProblems).map Problem.text

variable {s : ViewSettings} {p : Progress}

/-- If nothing overflows, a linked model is extracted. -/
lemma ofLinked_never {m : LinkedModel} (h : ¬ m.Overflows s.extraction .standard) :
    (ofLinked m s .never p).1 = .ok (assemble m (m.extraction s.extraction .standard)) := by
  have hcases := LinkedModel.extract_cases h (fun look => CancelSchedule.never (look + 2)) p
  rw [ofLinked]
  generalize m.extract s.extraction .standard (fun look => CancelSchedule.never (look + 2)) p = run
    at hcases ⊢
  obtain ⟨result, trail⟩ := run
  rcases hcases with ⟨-, hok⟩ | ⟨⟨look, -, hlook⟩, -⟩
  · cases hok
    rfl
  · cases hlook

/-- If something overflows, so does the load. -/
lemma ofLinked_never_of_overflows {m : LinkedModel} (h : m.Overflows s.extraction .standard) :
    (ofLinked m s .never p).1 = .error (.shape .overflow) := by
  have hcases := LinkedModel.extract_of_overflows h (fun look => CancelSchedule.never (look + 2)) p
  rw [ofLinked]
  generalize m.extract s.extraction .standard (fun look => CancelSchedule.never (look + 2)) p = run
    at hcases ⊢
  obtain ⟨result, trail⟩ := run
  rcases hcases with hover | ⟨⟨look, hlook⟩, -⟩
  · cases hover
    rfl
  · cases hlook

/-- A load of a text that cannot be read fails as reading does. -/
lemma ofBytes_of_error {bytes : List UInt8} {e : ReadError}
    (hparse : ExchangeFile.parse (decodeBytes bytes) s.maxProblems = .error e) :
    (ofBytes bytes s .never p).1 = .error (.read e) := by
  rw [ofBytes, ExchangeFile.ofBytes, hparse]

/-- A load of a text that can be read goes on to link and to extract. -/
lemma ofBytes_of_ok {bytes : List UInt8} {file : ExchangeFile}
    (hparse : ExchangeFile.parse (decodeBytes bytes) s.maxProblems = .ok file) :
    ∃ p', (ofBytes bytes s .never p).1 = (ofLinked file.link s .never p').1 := by
  rw [ofBytes, ExchangeFile.ofBytes, hparse]
  exact ⟨_, rfl⟩

/-- The report that is put together accounts for the file. -/
lemma reports_assemble {text : List Char} {file : ExchangeFile}
    (hparse : ExchangeFile.parse text s.maxProblems = .ok file) :
    (assemble file.link (file.link.extraction s.extraction .standard)).Reports text file s := by
  obtain ⟨fs, hall, hread⟩ := ExchangeFile.tells_parse hparse
  have hlinked := hread.pushAll file.linkProblems
  rw [← ExchangeFile.log_link] at hlinked
  have htold := hlinked.merge (file.link.tells_extraction s.extraction .standard) (Nat.le_refl _)
  have hobjects : (Scene.build (file.link.extraction s.extraction .standard).objects).objectCount =
      (file.link.extraction s.extraction .standard).summary.extracted := by
    rw [Scene.objectCount, Scene.build, List.size_toArray, List.length_map]
    rfl
  refine ⟨hobjects, hobjects, file.link.candidates_extraction _ _, file.size_link, ?_, fs, hall,
    hread.total, htold.messages⟩
  have htotal := htold.total
  rw [List.length_append, List.length_append, ExchangeFile.linkProblems, List.length_append,
    ExchangeFile.length_danglingProblems, List.length_map, UInt64.ofNat_add, UInt64.ofNat_add, UInt64.ofNat_add,
    ← UInt64.add_assoc, ← hread.total] at htotal
  exact htotal

/-- A load that nobody stops fails exactly if its text cannot be read, which is for want of a signature or
of a data section, or if a candidate overflows, which needs a curve that names the least number. Otherwise it gives a
model whose report accounts for the file. -/
theorem ofBytes_never_reports (bytes : List UInt8) (s : ViewSettings) (p : Progress) :
    (∀ e, (ofBytes bytes s .never p).1 = .error e ↔
      (∃ r, ExchangeFile.parse (decodeBytes bytes) s.maxProblems = .error r ∧ e = .read r) ∨
      ∃ file, ExchangeFile.parse (decodeBytes bytes) s.maxProblems = .ok file ∧
        file.link.Overflows s.extraction .standard ∧ e = .shape .overflow) ∧
    (∀ r, ExchangeFile.parse (decodeBytes bytes) s.maxProblems = .error r →
      r = .notExchangeFile ∨ r = .noDataSection) ∧
    (∀ file, ExchangeFile.parse (decodeBytes bytes) s.maxProblems = .ok file →
      ¬ file.link.Overflows s.extraction .standard →
      ∃ m, (ofBytes bytes s .never p).1 = .ok m ∧ m.Reports (decodeBytes bytes) file s) ∧
    ∀ file, ExchangeFile.parse (decodeBytes bytes) s.maxProblems = .ok file →
      file.link.Overflows s.extraction .standard → ∃ e ∈ file.link.entityList, e.NamesLeast := by
  refine ⟨?_, fun r => ExchangeFile.parse_eq_error, ?_,
    fun file _ => LinkedModel.exists_namesLeast MethodTable.known_standard⟩
  · intro e
    cases hparse : ExchangeFile.parse (decodeBytes bytes) s.maxProblems with
    | error r => simp [ofBytes_of_error hparse, eq_comm]
    | ok file =>
      obtain ⟨p', hload⟩ := ofBytes_of_ok (p := p) hparse
      by_cases hover : file.link.Overflows s.extraction .standard
      · simp [hload, ofLinked_never_of_overflows hover, hover, eq_comm]
      · simp [hload, ofLinked_never hover, hover]
  · intro file hparse hnone
    obtain ⟨p', hload⟩ := ofBytes_of_ok (p := p) hparse
    exact ⟨_, hload.trans (ofLinked_never hnone), reports_assemble hparse⟩

/-- A line without points, and an entity of an unknown kind that refers to a missing one. -/
def brokenInstances : List RawInstance := [⟨1, "IFCPOLYLINE", [.list []]⟩, ⟨3, "A", [.ref 9]⟩]

/-- A file with these entities, in which no number has to be written. -/
def brokenText : List Char := writeFile (fun _ => []) brokenInstances

def brokenBytes : List UInt8 := brokenText.map (·.toNat.toUInt8)

lemma brokenInstances_writable : ∀ e ∈ brokenInstances, e.Writable fun _ => [] := by
  simp only [brokenInstances, List.forall_mem_cons]
  refine ⟨⟨⟨by simp, by simp⟩, ?_⟩, ⟨⟨by simp, by simp⟩, ?_⟩, by simp⟩
  · exact List.forall_mem_singleton.mpr (.list (by simp))
  · exact List.forall_mem_singleton.mpr (.ref 9)

/-- The file that is read. -/
def brokenFile : ExchangeFile := ⟨{}, (brokenInstances.map (·.entity)).foldl EntityTable.push {}, .empty 50⟩

/-- The bytes are read as this file. -/
lemma parse_brokenBytes :
    ExchangeFile.parse (decodeBytes brokenBytes) ViewSettings.standard.maxProblems = .ok brokenFile := by
  have hdecode : decodeBytes brokenBytes = brokenText ++ [] := by decide +kernel
  rw [hdecode]
  exact ExchangeFile.parse_writeFile_eq brokenInstances_writable (by decide) [] 50

/-- Nothing in it overflows, since no entity of it has numbers. -/
lemma not_overflows_brokenFile : ¬ brokenFile.link.Overflows .standard .standard := by
  have hentities : brokenFile.link.entities =
      #[⟨1, .polyline, [.list []]⟩, ⟨3, .other "A", [.dangling 9]⟩] := by
    have hpolyline : Kind.ofName "IFCPOLYLINE" = .polyline := rfl
    have hother : Kind.ofName "A" = .other "A" := rfl
    simp [brokenFile, brokenInstances, RawInstance.entity, ExchangeFile.link, EntityTable.push, Entity.link,
      Value.linkAll, Value.link, EntityTable.position?, hpolyline, hother]
  apply LinkedModel.not_overflows_of_tame MethodTable.known_standard
  simp [LinkedModel.Tame, LinkedModel.entityList, hentities, LinkedEntity.NamesLeast]

/-- The load of this file succeeds, and its report accounts for it. -/
theorem ofBytes_brokenBytes_reports :
    ExchangeFile.parse (decodeBytes brokenBytes) ViewSettings.standard.maxProblems = .ok brokenFile ∧
    ¬ brokenFile.link.Overflows ViewSettings.standard.extraction .standard ∧
    ∃ m, (ofBytes brokenBytes .standard .never .start).1 = .ok m ∧
      m.Reports (decodeBytes brokenBytes) brokenFile .standard := by
  obtain ⟨-, -, hloads, -⟩ := ofBytes_never_reports brokenBytes .standard .start
  exact ⟨parse_brokenBytes, not_overflows_brokenFile, hloads brokenFile parse_brokenBytes not_overflows_brokenFile⟩

/-- A point, and a curve with the least number of 64 bits. -/
def overflowingInstances : List RawInstance :=
  [⟨1, "IFCCARTESIANPOINTLIST2D", [.list [.list [.integer 0, .integer 0]]]⟩,
    ⟨2, "IFCINDEXEDPOLYCURVE", [.ref 1, .list [.typed "IFCLINEINDEX" [.list [.integer Int64.minValue]]]]⟩]

def overflowingText : List Char := writeFile (fun _ => []) overflowingInstances

def overflowingBytes : List UInt8 := overflowingText.map (·.toNat.toUInt8)

lemma overflowingInstances_writable : ∀ e ∈ overflowingInstances, e.Writable fun _ => [] := by
  have hpoints : (Value.list [.list [.integer 0, .integer 0]]).Writable fun _ => [] := by
    refine .list (List.forall_mem_singleton.mpr (.list ?_))
    simp only [List.mem_cons, List.not_mem_nil, or_false, forall_eq_or_imp, forall_eq]
    exact ⟨.integer 0, .integer 0⟩
  have hsegments : (Value.list [.typed "IFCLINEINDEX" [.list [.integer Int64.minValue]]]).Writable fun _ => [] := by
    refine .list (List.forall_mem_singleton.mpr (.typed ⟨by simp, by simp⟩ (by simp) ?_))
    exact List.forall_mem_singleton.mpr (.list (List.forall_mem_singleton.mpr (.integer _)))
  simp only [overflowingInstances, List.forall_mem_cons]
  refine ⟨⟨⟨by simp, by simp⟩, List.forall_mem_singleton.mpr hpoints⟩, ⟨⟨by simp, by simp⟩, ?_⟩, by simp⟩
  simp only [List.forall_mem_cons]
  exact ⟨.ref 1, hsegments, by simp⟩

/-- The text of these bytes is read, but the load of the file fails. -/
theorem ofBytes_overflowingBytes :
    ExchangeFile.parse (decodeBytes overflowingBytes) ViewSettings.standard.maxProblems =
      .ok ExchangeFile.overflowingFile ∧
    (ofBytes overflowingBytes .standard .never .start).1 = .error (.shape .overflow) := by
  have hdecode : decodeBytes overflowingBytes = overflowingText ++ [] := by decide +kernel
  have hparse : ExchangeFile.parse (decodeBytes overflowingBytes) ViewSettings.standard.maxProblems =
      .ok ExchangeFile.overflowingFile := by
    rw [hdecode]
    exact ExchangeFile.parse_writeFile_eq overflowingInstances_writable (by decide) [] 50
  have hover : ExchangeFile.overflowingFile.link.Overflows ViewSettings.standard.extraction .standard :=
    ExchangeFile.overflows_of_overflowing (ExchangeFile.sound_parse hparse) rfl
  obtain ⟨p, hload⟩ := ofBytes_of_ok (p := .start) hparse
  exact ⟨hparse, hload.trans (ofLinked_never_of_overflows hover)⟩

end LoadedModel

end BuildingModel
