import SchemaReader.Command.Run
import SchemaReader.Proofs.Files.Written
import SchemaReader.Proofs.Output.RoundTrip

/-!
# What a run leaves behind

The document is made before anything is printed or written.  A run that ends with the
exit code 1 has therefore printed and written nothing, and a run that succeeds gives
the whole document to the standard output or to the output file, but not to both.
The document is JSON text.  Whoever reads it by the grammar of JSON finds the payload in it,
and in the payload the summary that counts the tables and columns of the script.
-/

namespace SchemaReader.Output

theorem Datum.field?_payload_summary (content : Content) (catalogue : Schema.Catalogue) :
    (payload content catalogue).datum.field? "summary" =
      some (ofSummary catalogue.summary).datum := by
  rw [payload, Json.datum, mainPart, relationsPart]
  split <;> split <;> rfl

end SchemaReader.Output

namespace SchemaReader.Schema.Catalogue

theorem totalFields_summary (catalogue : Catalogue) :
    catalogue.summary.totalFields = (catalogue.tables.map (·.columns.length)).sum := by
  rw [summary, List.sum_eq_foldl, List.foldl_map]

end SchemaReader.Schema.Catalogue

namespace SchemaReader.Command

open SchemaReader.Output (Datum)
open SchemaReader.Reading (readScriptAt)

variable {files : Files} {level : Int} {journal : List Entry} {code : Nat}

@[simp] theorem failed_files (files : Files) (level : Int) (journal : List Entry) (fault : Fault) :
    (failed files level journal fault).files = files := by
  unfold failed
  split <;> rfl

@[simp] theorem failed_output (files : Files) (level : Int) (journal : List Entry)
    (fault : Fault) : (failed files level journal fault).output = "" := by
  unfold failed
  split <;> rfl

theorem failed_ending (files : Files) (level : Int) (journal : List Entry) (fault : Fault) :
    (failed files level journal fault).ending =
      if fault.notice?.isSome then .exit 1 else .fault fault := by
  unfold failed
  split <;> simp [*]

theorem failed_ending_ne_exit {fault : Fault} (h : fault.notice? = none) :
    (failed files level journal fault).ending ≠ .exit code := by
  rw [failed_ending, h]
  simp

/-- Either the standard output or the output file received the text, and nothing else changed. -/
inductive Received (before : Files) (text : String) : Option OutputName → Outcome → Prop
  | printed {output : Option OutputName} {outcome : Outcome}
      (houtput : output = none ∨ output = some (.path ""))
      (htext : outcome.output = text) (hfiles : outcome.files = before) :
      Received before text output outcome
  | written {path : String} {place : Path} {outcome : Outcome} (hpath : path ≠ "")
      (hplace : before.path? path = some place) (hsilent : outcome.output = "")
      (hwritten : Files.Written before place text.toUTF8.data.toList outcome.files) :
      Received before text (some (.path path)) outcome

theorem received_of_deliverTo {path text : String} (hpath : path ≠ "")
    (h : (deliverTo files level journal path text).ending = .exit code) :
    code = 0 ∧
      Received files text (some (.path path)) (deliverTo files level journal path text) := by
  unfold deliverTo at h ⊢
  cases hplace : files.path? path with
  | none =>
      rw [hplace] at h
      exact absurd h (failed_ending_ne_exit rfl)
  | some place =>
      simp only [hplace] at h ⊢
      split at h
      · cases h
      · rename_i written hwrite
        cases h
        exact ⟨rfl, .written hpath hplace rfl (Files.written_of_write hwrite)⟩

theorem refuse_ending_ne_exit (points : List Text.CodePoint) :
    (refuse files level journal points).ending ≠ .exit code := by
  -- Directories may have been made by then, but no fault that is left has a notice.
  unfold refuse
  dsimp only
  split
  · split <;> exact failed_ending_ne_exit rfl
  · split
    · exact failed_ending_ne_exit rfl
    · split
      · simp [unwritten]
      · split <;> exact failed_ending_ne_exit rfl

theorem received_of_deliver {output : Option OutputName} {text : String}
    (h : (deliver files level journal output text).ending = .exit code) :
    code = 0 ∧ Received files text output (deliver files level journal output text) := by
  unfold deliver at h ⊢
  split at h
  · cases h
    exact ⟨rfl, .printed (.inl rfl) rfl rfl⟩
  · cases h
    exact ⟨rfl, .printed (.inr rfl) rfl rfl⟩
  · rename_i path hpath
    exact received_of_deliverTo (fun hempty => hpath (by rw [hempty])) h
  · exact absurd h (refuse_ending_ne_exit _)

variable {request : ParseRequest}

theorem runParse_cases (files : Files) (request : ParseRequest) :
    (∃ level journal fault, runParse files request = failed files level journal fault) ∨
    ∃ settings catalogue level journal, settingsOf files request = .ok settings ∧
      (readScriptAt settings.readOptions .utf8 files request.file).result = .ok catalogue ∧
      runParse files request =
        deliver files level journal settings.output (document settings catalogue) := by
  unfold runParse
  split
  · exact .inl ⟨_, _, _, rfl⟩
  · rename_i settings hsettings
    dsimp only
    split
    · exact .inl ⟨_, _, _, rfl⟩
    · rename_i catalogue hreading
      exact .inr ⟨settings, catalogue, _, _, hsettings, hreading, rfl⟩

/-- A run of `parse` with the exit code 1 printed nothing and left all files and directories as they
were.  One with the exit code 0 delivered JSON text of the payload for its script, and the summary
read from this text counts every table and every column. -/
theorem run_parse_effects {arguments : List String} (files : Files)
    (h : Request.ofArguments arguments = .ok (.parse request)) :
    ((run files arguments).ending = .exit 1 →
      (run files arguments).output = "" ∧ (run files arguments).files = files) ∧
    ((run files arguments).ending = .exit 0 →
      ∃ settings catalogue text datum,
        settingsOf files request = .ok settings ∧
        (readScriptAt settings.readOptions .utf8 files request.file).result = .ok catalogue ∧
        Received files (text ++ "\n") settings.output (run files arguments) ∧
        Datum.read? text = some datum ∧
        datum = (Output.payload (contentOf settings) catalogue).datum ∧
        datum.field? "summary" =
          some (.object [("tableCount", .number catalogue.tables.length),
            ("totalFields", .number ((catalogue.tables.map (·.columns.length)).sum : Nat))])) := by
  have hrun : run files arguments = runParse files request := by
    unfold run
    rw [h]
  rw [hrun]
  rcases runParse_cases files request with ⟨level, journal, fault, hfailed⟩ |
    ⟨settings, catalogue, level, journal, hsettings, hreading, hdelivered⟩
  · rw [hfailed]
    refine ⟨fun _ => ⟨failed_output .., failed_files ..⟩, fun hexit => ?_⟩
    rw [failed_ending] at hexit
    split at hexit <;> cases hexit
  · rw [hdelivered]
    refine ⟨fun hexit => absurd (received_of_deliver hexit).1 Nat.one_ne_zero, fun hexit => ?_⟩
    refine ⟨settings, catalogue, _, _, hsettings, hreading, (received_of_deliver hexit).2,
      Datum.read?_render _, rfl, ?_⟩
    rw [Datum.field?_payload_summary, ← Schema.Catalogue.totalFields_summary]
    rfl

/-- A script with a table, one without, and settings that name an output in a directory that is
not there. -/
def exampleFiles : Files where
  home := "/home"
  files :=
    [(["t.sql"], "CREATE TABLE t (a INT, b INT);".toUTF8.data.toList),
      (["q.sql"], "SELECT 1;".toUTF8.data.toList),
      (["c.yml"], "output: out/t.json".toUTF8.data.toList)]
  directories := []

theorem run_parse_effects_output_in_settings :
    (run exampleFiles ["parse", "q.sql", "--config", "c.yml"]).ending = .exit 1 ∧
    (run exampleFiles ["parse", "q.sql", "--config", "c.yml"]).output = "" ∧
    (run exampleFiles ["parse", "q.sql", "--config", "c.yml"]).files = exampleFiles ∧
    (run exampleFiles ["parse", "t.sql", "--config", "c.yml"]).ending = .exit 0 ∧
    ∃ text datum,
      Received exampleFiles (text ++ "\n") (some (.path "out/t.json"))
        (run exampleFiles ["parse", "t.sql", "--config", "c.yml"]) ∧
      Datum.read? text = some datum ∧
      datum.field? "summary" =
        some (.object [("tableCount", .number 1), ("totalFields", .number 2)]) := by
  have hrequest : Request.ofArguments ["parse", "q.sql", "--config", "c.yml"] =
      .ok (.parse ⟨"q.sql", none, false, false, false, false, some "c.yml", 0⟩) := rfl
  have hexit : (run exampleFiles ["parse", "q.sql", "--config", "c.yml"]).ending = .exit 1 := by
    decide +kernel
  have hfailed := (run_parse_effects exampleFiles hrequest).1 hexit
  have hrequest' : Request.ofArguments ["parse", "t.sql", "--config", "c.yml"] =
      .ok (.parse ⟨"t.sql", none, false, false, false, false, some "c.yml", 0⟩) := rfl
  have hexit' : (run exampleFiles ["parse", "t.sql", "--config", "c.yml"]).ending = .exit 0 := by
    decide +kernel
  obtain ⟨settings, catalogue, text, datum, hsettings, hreading, hreceived, htext, -, hsummary⟩ :=
    (run_parse_effects exampleFiles hrequest').2 hexit'
  have hloaded : settingsOf exampleFiles
      ⟨"t.sql", none, false, false, false, false, some "c.yml", 0⟩ =
        .ok { output := some (.path "out/t.json") } := by decide +kernel
  have hread : (readScriptAt {} .utf8 exampleFiles "t.sql").result =
      .ok ⟨[⟨"t", "", [⟨"a", ⟨"INT", none, "INT", .integer⟩, true, none, false, false, "", none⟩,
        ⟨"b", ⟨"INT", none, "INT", .integer⟩, true, none, false, false, "", none⟩], []⟩]⟩ := by
    decide +kernel
  cases hloaded.symm.trans hsettings
  cases hread.symm.trans hreading
  exact ⟨hexit, hfailed.1, hfailed.2, hexit', text, datum, hreceived, htext, hsummary⟩

end SchemaReader.Command
