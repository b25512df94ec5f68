import Tabulate.Proofs.Delimited.Accounting
import Tabulate.Proofs.Pipeline.Readers
import Tabulate.Proofs.Pipeline.Locality
import Tabulate.Proofs.Token.Concatenation

/-! A pipeline whose text goes on after a bar reads as its two parts and runs them one after the
other. -/
namespace Tabulate

namespace Payload
open Reporting

private theorem lift_additive {ε α : Type} (f : ε → Payload.Error) (x : Except ε α) :
    (lift f x).Additive := by
  cases x with
  | error e => exact .throw _
  | ok a => exact .pure a

private theorem checkResponse_additive (response : Value) : (checkResponse response).Additive := by
  unfold checkResponse
  dsimp only
  split
  · exact .throw _
  · exact (Additive.forEach (fun _ _ => (Additive.warn _).bind fun _ => .pure _) _).bind fun _ => .pure _

theorem readText_additive (type : ContentType) (o : Delimited.Options) (text : String) :
    (readText type o text).Additive := by
  cases type with
  | json | xml | html | yaml => exact lift_additive _ _
  | csv | tsv => exact (Delimited.read_additive _ text).mapError _
  | graphql => exact (lift_additive _ _).bind checkResponse_additive

theorem read_additive (type : ContentType) (o : Delimited.Options) (bytes : List Nat) :
    (read type o bytes).Additive := (lift_additive _ _).bind (readText_additive type o)

end Payload

namespace Pipeline

section Stages
variable {defaults : Delimited.Options} {n : Nat} {ts after : Tokens} {stage : Stage}

private theorem readStages_of_readStage (h : readStage defaults ts = .ok (stage, after)) :
    readStages defaults (n + 1) ts =
      if after.isEmpty then .ok [stage]
      else
        match after.eat? "|" with
        | none => fail after.position (.noBar after.describe)
        | some rest => do return stage :: (← readStages defaults n rest) := by
  have hsome : ts.isEmpty = false := by
    obtain ⟨_ | ⟨first, rest⟩, finish⟩ := ts
    · contradiction
    · rfl
  rw [readStages, if_neg (by simp [hsome]), h]
  rfl

private theorem readStages_last (h : readStage defaults ts = .ok (stage, after)) (last : after.rest = []) :
    readStages defaults (n + 1) ts = .ok [stage] := by
  rw [readStages_of_readStage h, if_pos (show after.isEmpty = true from List.isEmpty_iff.mpr last)]

private theorem readStages_bar_iff (h : readStage defaults ts = .ok (stage, after))
    (bar : after.peek? = some (.symbol "|")) {stages : List Stage} :
    readStages defaults (n + 1) ts = .ok stages ↔
      ∃ more, readStages defaults n after.tail = .ok more ∧ stages = stage :: more := by
  have hsome : after.isEmpty = false := by
    obtain ⟨_ | ⟨first, rest⟩, finish⟩ := after
    · contradiction
    · rfl
  have heat : after.eat? "|" = some after.tail := Tokens.eat?_eq_some_iff.mpr ⟨bar, rfl⟩
  rw [readStages_of_readStage h, if_neg (by simp [hsome]), heat]
  dsimp only
  cases readStages defaults n after.tail with
  | error e => exact ⟨nofun, nofun⟩
  | ok more =>
    constructor
    · rintro ⟨⟩
      exact ⟨more, rfl, rfl⟩
    · rintro ⟨_, ⟨⟩, rfl⟩
      rfl

private theorem readStages_cases {stages : List Stage} (h : readStages defaults n ts = .ok stages) :
    (ts.rest = [] ∧ stages = []) ∨
      ∃ k stage after, n = k + 1 ∧ readStage defaults ts = .ok (stage, after) ∧
        ((after.rest = [] ∧ stages = [stage]) ∨
          ∃ more, after.peek? = some (.symbol "|") ∧ readStages defaults k after.tail = .ok more ∧
            stages = stage :: more) := by
  cases n with
  | zero => contradiction
  | succ k =>
    by_cases empty : ts.isEmpty
    · rw [readStages, if_pos empty] at h
      cases h
      exact .inl ⟨List.isEmpty_iff.mp empty, rfl⟩
    · cases hstage : readStage defaults ts with
      | error e =>
        rw [readStages, if_neg empty, hstage] at h
        contradiction
      | ok found =>
        refine .inr ⟨k, found.1, found.2, rfl, rfl, ?_⟩
        rw [readStages_of_readStage hstage] at h
        split at h
        · next last =>
          cases h
          exact .inl ⟨List.isEmpty_iff.mp last, rfl⟩
        · cases heat : found.2.eat? "|" with
          | none =>
            rw [heat] at h
            contradiction
          | some rest =>
            obtain ⟨bar, rfl⟩ := Tokens.eat?_eq_some_iff.mp heat
            simp only [heat] at h
            cases hmore : readStages defaults k found.2.tail with
            | error e =>
              rw [hmore] at h
              contradiction
            | ok more =>
              rw [hmore] at h
              cases h
              exact .inr ⟨more, bar, rfl, rfl⟩

private theorem length_tail_lt (h : readStage defaults ts = .ok (stage, after))
    (enough : ts.rest.length < n + 1) : after.tail.rest.length < n := by
  have htakes := readStage_takes h
  have htail := after.isRestOf_tail.length_le
  omega

private theorem readStages_of_tokens {m : Nat} {us : Tokens} (enough : us.rest.length < m)
    (h : Extends [] ts.rest us.rest) {stages : List Stage}
    (hread : readStages defaults n ts = .ok stages) : readStages defaults m us = .ok stages := by
  -- only the tokens matter, not where they stand; a step for each of them is enough
  induction n generalizing m ts us stages with
  | zero => contradiction
  | succ n ih =>
    obtain ⟨m, rfl, -⟩ := exists_step enough
    have hnil : ∀ {ts us : Tokens}, Extends [] ts.rest us.rest → ts.rest = [] → us.rest = [] := by
      intro ts us h hts
      have htokens := h.tokens
      rw [hts] at htokens
      exact List.map_eq_nil_iff.mp htokens
    rcases readStages_cases hread with ⟨hts, rfl⟩ | ⟨k, stage, after, hk, hstage, hafter⟩
    · have hus : us.isEmpty = true := List.isEmpty_iff.mpr (hnil h hts)
      rw [readStages, if_pos hus]
    · obtain rfl := Nat.succ.inj hk
      obtain ⟨us', hus, hrest⟩ := readStage_agrees defaults h stage after hstage
      rcases hafter with ⟨hend, rfl⟩ | ⟨more, bar, hmore, rfl⟩
      · exact readStages_last hus (hnil hrest hend)
      · obtain ⟨hbar, htail⟩ := hrest.peek? bar
        exact (readStages_bar_iff hus hbar).mpr ⟨more, ih (length_tail_lt hus enough) htail hmore, rfl⟩

private theorem readStages_join {k m : Nat} {us : Tokens} (next : Tokens) (enough : next.rest.length < k)
    (enoughJoined : us.rest.length < m)
    (h : Extends (.symbol "|" :: next.rest.map (·.token)) ts.rest us.rest) (some : ts.rest ≠ [])
    {stages joined : List Stage} (hread : readStages defaults n ts = .ok stages) :
    readStages defaults m us = .ok joined ↔
      ∃ others, readStages defaults k next = .ok others ∧ joined = stages ++ others := by
  -- By the steps for the first tokens: each of their stages is read from the joined tokens too, and
  -- only after the last one does the rest of the joined tokens matter.
  induction n generalizing m ts us stages joined with
  | zero => contradiction
  | succ n ih =>
    obtain ⟨m, rfl, -⟩ := exists_step enoughJoined
    rcases readStages_cases hread with ⟨hts, -⟩ | ⟨_, stage, after, hn, hstage, hafter⟩
    · contradiction
    · obtain rfl := Nat.succ.inj hn
      obtain ⟨us', hus, hrest⟩ := readStage_agrees defaults h stage after hstage
      have hlength := length_tail_lt hus enoughJoined
      rcases hafter with ⟨hend, rfl⟩ | ⟨more, bar, hmore, rfl⟩
      · rw [hend] at hrest
        obtain ⟨hbar, htokens⟩ := hrest.bar_next
        have htail : Extends [] next.rest us'.tail.rest := ⟨by rw [htokens, List.append_nil], .inl rfl⟩
        have hback : Extends [] us'.tail.rest next.rest := ⟨by rw [htokens, List.append_nil], .inl rfl⟩
        rw [readStages_bar_iff hus hbar]
        constructor
        · rintro ⟨others, hothers, rfl⟩
          exact ⟨others, readStages_of_tokens enough hback hothers, rfl⟩
        · rintro ⟨others, hothers, rfl⟩
          exact ⟨others, readStages_of_tokens hlength htail hothers, rfl⟩
      · obtain ⟨hbar, htail⟩ := hrest.peek? bar
        rw [readStages_bar_iff hus hbar]
        constructor
        · rintro ⟨_, hall, rfl⟩
          obtain ⟨others, hothers, rfl⟩ :=
            (ih hlength htail (hrest.more_after_bar bar) hmore).mp hall
          exact ⟨others, hothers, rfl⟩
        · rintro ⟨others, hothers, rfl⟩
          exact ⟨_, (ih hlength htail (hrest.more_after_bar bar) hmore).mpr ⟨others, hothers, rfl⟩, rfl⟩

end Stages

private theorem parseAll_eq_ok_iff {defaults : Delimited.Options} {source : String} {stages : List Stage} :
    Stage.parseAll defaults source = .ok stages ↔ ∃ lexemes, Token.lex source true = .ok lexemes ∧
      readStages defaults (lexemes.length + 1) ⟨lexemes, byteCount source.toList⟩ = .ok stages := by
  unfold Stage.parseAll Token.stream
  cases Token.lex source true with
  | error e => exact ⟨nofun, nofun⟩
  | ok lexemes => exact ⟨fun h => ⟨lexemes, rfl, h⟩, fun ⟨_, heq, h⟩ => by cases heq; exact h⟩

/-- A text and what follows it after a bar read as the stages of both. -/
theorem parseAll_bar_iff {defaults : Delimited.Options} {source next : String} {stages joined : List Stage}
    (hsource : Stage.parseAll defaults source = .ok stages) {lexemes : List Lexeme} {last : Lexeme}
    (hlex : Token.lex source true = .ok (lexemes ++ [last])) (hlast : last.token ≠ .symbol "|") :
    Stage.parseAll defaults (source ++ " | " ++ next) = .ok joined ↔
      ∃ others, Stage.parseAll defaults next = .ok others ∧ joined = stages ++ others := by
  obtain ⟨_, hlexed, hread⟩ := parseAll_eq_ok_iff.mp hsource
  obtain rfl := Except.ok.inj (hlexed.symm.trans hlex)
  have hextends : ∀ {whole others : List Lexeme},
      whole.map (·.token) = (lexemes ++ [last]).map (·.token) ++ .symbol "|" :: others.map (·.token) →
      Extends (.symbol "|" :: others.map (·.token)) (lexemes ++ [last]) whole :=
    fun htokens => ⟨htokens, .inr ⟨rfl, by simpa using hlast⟩⟩
  constructor
  · intro hjoined
    obtain ⟨whole, hwhole, hall⟩ := parseAll_eq_ok_iff.mp hjoined
    obtain ⟨others, hothers, htokens⟩ := Token.lex_of_bar hlex hwhole
    obtain ⟨more, hmore, rfl⟩ := (readStages_join ⟨others, byteCount next.toList⟩ (Nat.lt_succ_self _)
      (Nat.lt_succ_self _) (hextends htokens) (by simp) hread).mp hall
    exact ⟨more, parseAll_eq_ok_iff.mpr ⟨others, hothers, hmore⟩, rfl⟩
  · rintro ⟨more, hnext, rfl⟩
    obtain ⟨others, hothers, hmore⟩ := parseAll_eq_ok_iff.mp hnext
    obtain ⟨whole, hwhole, htokens⟩ := Token.lex_bar hlex hothers
    refine parseAll_eq_ok_iff.mpr ⟨whole, hwhole, ?_⟩
    exact (readStages_join ⟨others, byteCount next.toList⟩ (Nat.lt_succ_self _) (Nat.lt_succ_self _)
      (hextends htokens) (by simp) hread).mpr ⟨more, hmore, rfl⟩

/-- The stages of two texts with a bar between them. -/
theorem parseAll_join {defaults : Delimited.Options} {source next : String} {stages others : List Stage}
    (hsource : Stage.parseAll defaults source = .ok stages)
    (hnext : Stage.parseAll defaults next = .ok others) {lexemes : List Lexeme} {last : Lexeme}
    (hlex : Token.lex source true = .ok (lexemes ++ [last])) (hlast : last.token ≠ .symbol "|") :
    Stage.parseAll defaults (source ++ " | " ++ next) = .ok (stages ++ others) :=
  (parseAll_bar_iff hsource hlex hlast).mpr ⟨others, hnext, rfl⟩

/-- A verb that stands alone. -/
theorem parseAll_verb {defaults : Delimited.Options} {name : String} (verb : Verb) {stage : Stage}
    (hlex : Token.lex name true = .ok [⟨.ident name, 0⟩]) (hlower : Unicode.lower name = name)
    (hname : Verb.ofName? name = some verb)
    (hread : ∀ finish, readVerb defaults name verb ⟨[], finish⟩ = .ok (stage, ⟨[], finish⟩)) :
    Stage.parseAll defaults name = .ok [stage] := by
  have hstage : ∀ finish,
      readStage defaults ⟨[⟨.ident name, 0⟩], finish⟩ = .ok (stage, ⟨[], finish⟩) := by
    intro finish
    simp only [readStage, Tokens.peek?, List.head?_cons, Option.map_some, hlower, hname]
    exact hread finish
  exact parseAll_eq_ok_iff.mpr ⟨_, hlex, readStages_last (hstage _) rfl⟩

section Reports
open Reporting

namespace Stage

private theorem lifted_additive {α : Type} (x : Except RecordFault α) : (lifted x).Additive := by
  cases x with
  | error fault => exact .throw _
  | ok a => exact .pure a

private theorem readText_additive (s : Stage) (type : Payload.ContentType) (o : Delimited.Options)
    (input : Value) : (s.readText type o input).Additive := by
  cases input with
  | string text => exact (Payload.readText_additive type o text).mapError _
  | _ => exact .throw _

private theorem readJson_additive (input : Value) : (readJson input).Additive := by
  cases input with
  | string text => exact (Payload.readText_additive _ _ _).mapError _
  | _ => exact .pure _

/-- What a stage reports does not depend on the reports before it. -/
theorem apply_additive (s : Stage) (input : Value) : (s.apply input).Additive := by
  cases s with
  | parseJson => exact readJson_additive input
  | parseCsv o => exact readText_additive _ _ o input
  | parseMarkup language => cases language <;> exact readText_additive _ _ _ input
  | parseYaml => exact readText_additive _ _ _ input
  | scope | orderBy | limit | count => exact .pure _
  | project | projectAway | extend => exact lifted_additive _
  | summarize | filter => exact (Additive.debug _ _).bind fun _ => .pure _
  | mvExpand field =>
    exact (lifted_additive _).bind fun rows => (Additive.debug _ _).bind fun _ => .pure _
  | jsonata e =>
    unfold apply
    dsimp only
    split
    · exact .pure _
    · exact .throw _

end Stage
end Reports

/-- A failure in a program with a number of stages before its own. -/
def Failure.after (count : Nat) (f : Failure) : Failure := { f with index := f.index + count }

namespace Program

/-- The result and the warnings of running one program, and another one on what it results in. -/
def runInTurn (p q : Program) (input : Value) : Except Failure Value × List String :=
  match (p.run input).outcome with
  | (.error failure, journal) => (.error failure, journal.warnings)
  | (.ok value, journal) =>
    ((q.run value).outcome.1.mapError (Failure.after p.stages.length),
      journal.warnings ++ (q.run value).outcome.2.warnings)

private theorem runFrom_append (name : String) (stages others : List Stage) (index : Nat) (input : Value) :
    runFrom name index (stages ++ others) input =
      runFrom name index stages input >>= runFrom name (index + stages.length) others := by
  induction stages generalizing index input with
  | nil => exact (pure_bind _ _).symm
  | cons s rest ih =>
    have hindex : index + (s :: rest).length = index + 1 + rest.length := by
      rw [List.length_cons, Nat.add_comm rest.length, Nat.add_assoc]
    simp only [List.cons_append, runFrom, ih, hindex, bind_assoc]

private theorem runFrom_after (name other : String) (count : Nat) (stages : List Stage) (index : Nat)
    (input : Value) :
    ∃ result journal later, (runFrom name index stages input).Yields result journal ∧
      (runFrom other (index + count) stages input).Yields (result.mapError (Failure.after count)) later ∧
      later.warnings = journal.warnings := by
  induction stages generalizing index input with
  | nil => exact ⟨.ok input, [], [], Reporting.yields_pure _, Reporting.yields_pure _, rfl⟩
  | cons s rest ih =>
    obtain ⟨result, journal, happly⟩ := s.apply_additive input
    cases result with
    | error fault =>
      exact ⟨.error ⟨index, fault⟩, journal, journal, (happly.mapError _).bind_error _,
        (happly.mapError _).bind_error _, rfl⟩
    | ok value =>
      obtain ⟨result, rest, later, hrest, hlater, hwarnings⟩ := ih (index + 1) value
      rw [Nat.add_right_comm] at hlater
      refine ⟨result, _, _, (happly.mapError _).bind ((Reporting.yields_debug _ _).bind hrest),
        (happly.mapError _).bind ((Reporting.yields_debug _ _).bind hlater), ?_⟩
      simp [hwarnings]

theorem run_additive (p : Program) (input : Value) : (p.run input).Additive := by
  obtain ⟨result, journal, _, hrun, -⟩ := runFrom_after p.name p.name 0 p.stages 0 input
  exact ⟨result, journal, hrun⟩

/-- What a program ends in is what its first stage makes of a value and the others make of that. -/
theorem success?_run_cons (name : String) (s : Stage) (rest : List Stage) (input : Value) :
    ((⟨name, s :: rest⟩ : Program).run input).success? =
      (s.apply input).success?.bind fun found =>
        ((⟨name, rest⟩ : Program).run found.1).success?.map (Prod.map id (found.2 ++ ·)) := by
  have hlater : ∀ v, (runFrom name 1 rest v).Additive ∧
      (runFrom name 1 rest v).success? = ((⟨name, rest⟩ : Program).run v).success? := by
    intro v
    obtain ⟨result, journal, later, hrun, hlater, hwarnings⟩ := runFrom_after name name 1 rest 0 v
    refine ⟨⟨_, _, hlater⟩, ?_⟩
    rw [hlater.success?, show ((⟨name, rest⟩ : Program).run v).success? = _ from hrun.success?, hwarnings]
    cases result <;> rfl
  rw [run, runFrom, Reporting.success?_bind, Reporting.success?_mapError]
  · refine Option.bind_congr fun found _ => ?_
    rw [Reporting.success?_debug_bind _ _ (hlater found.1).1, (hlater found.1).2]
  · exact fun v => (Reporting.Additive.debug _ _).bind fun _ => (hlater v).1

/-- Running the stages of two programs is running the programs in turn. -/
theorem run_append (name : String) (p q : Program) (input : Value) :
    (((⟨name, p.stages ++ q.stages⟩ : Program).run input).outcome.1,
      ((⟨name, p.stages ++ q.stages⟩ : Program).run input).outcome.2.warnings) =
        p.runInTurn q input := by
  obtain ⟨result, journal, later, hp, hstages, hwarnings⟩ :=
    runFrom_after p.name name 0 p.stages 0 input
  have hjoined : (⟨name, p.stages ++ q.stages⟩ : Program).run input =
      runFrom name 0 p.stages input >>= runFrom name (0 + p.stages.length) q.stages :=
    runFrom_append name p.stages q.stages 0 input
  rw [hjoined, runInTurn, show (p.run input).outcome = _ from hp.outcome]
  cases result with
  | error failure =>
    rw [(hstages.bind_error _).outcome, hwarnings]
    rfl
  | ok value =>
    obtain ⟨result, more, moreLater, hq, hothers, hmore⟩ :=
      runFrom_after q.name name p.stages.length q.stages 0 value
    rw [(hstages.bind hothers).outcome, Journal.warnings_append, hwarnings, hmore]
    simp only [show (q.run value).outcome = _ from hq.outcome]

/-- Reading a program notes how many stages it has, and warns of nothing. -/
theorem yields_parse (defaults : Delimited.Options) (source : String) :
    ∃ notes : Journal, (parse defaults source).Yields
      ((Stage.parseAll defaults source).map (Program.mk "uql")) notes ∧ notes.warnings = [] := by
  unfold parse
  cases Stage.parseAll defaults source with
  | error e => exact ⟨_, Reporting.yields_throw e, rfl⟩
  | ok stages => exact ⟨_, (Reporting.yields_debug _ _).bind (Reporting.yields_pure _), rfl⟩

private theorem parse_eq_ok_iff {defaults : Delimited.Options} {source : String} {p : Program} :
    (parse defaults source).outcome.1 = .ok p ↔
      ∃ stages, Stage.parseAll defaults source = .ok stages ∧ p = ⟨"uql", stages⟩ := by
  obtain ⟨notes, hparse, -⟩ := yields_parse defaults source
  rw [hparse.outcome]
  cases Stage.parseAll defaults source with
  | error e => exact ⟨nofun, nofun⟩
  | ok stages =>
    constructor
    · rintro ⟨⟩
      exact ⟨stages, rfl, rfl⟩
    · rintro ⟨_, ⟨⟩, rfl⟩
      rfl

theorem parse_eq_error_iff {defaults : Delimited.Options} {source : String} {e : ParseError} :
    (parse defaults source).outcome.1 = .error e ↔ Stage.parseAll defaults source = .error e := by
  obtain ⟨notes, hparse, -⟩ := yields_parse defaults source
  rw [hparse.outcome]
  cases Stage.parseAll defaults source with
  | error fault =>
    constructor <;>
    · rintro ⟨⟩
      rfl
  | ok stages => exact ⟨nofun, nofun⟩

/-- The stages of a program that is read are checked. -/
theorem isChecked_of_parse {defaults : Delimited.Options} {source : String} {p : Program}
    (accepted : (parse defaults source).outcome.1 = .ok p) : ∀ stage ∈ p.stages, stage.IsChecked := by
  obtain ⟨stages, hstages, rfl⟩ := parse_eq_ok_iff.mp accepted
  obtain ⟨ts, hts, -⟩ := exists_of_bind_eq_ok hstages
  exact (parseAll_settles defaults (eq_ok_of_mapError hts)).of_eq_ok hstages

/-- Two texts that read as programs read as one with a bar between them, unless the first has no
token or ends in a bar. Its stages are those of both, and running it is running both in turn. -/
theorem parse_bar (defaults : Delimited.Options) {source next : String} {p q : Program}
    {lexemes : List Lexeme} {last : Lexeme}
    (accepted : (parse defaults source).outcome.1 = .ok p)
    (nextAccepted : (parse defaults next).outcome.1 = .ok q)
    (someToken : Token.lex source true = .ok (lexemes ++ [last])) (noBar : last.token ≠ .symbol "|") :
    ∃ joined, (parse defaults (source ++ " | " ++ next)).outcome.1 = .ok joined ∧
      joined.stages = p.stages ++ q.stages ∧
      ∀ input, ((joined.run input).outcome.1, (joined.run input).outcome.2.warnings) =
        p.runInTurn q input := by
  obtain ⟨stages, hstages, rfl⟩ := parse_eq_ok_iff.mp accepted
  obtain ⟨others, hothers, rfl⟩ := parse_eq_ok_iff.mp nextAccepted
  have hjoined := parseAll_join hstages hothers someToken noBar
  exact ⟨_, parse_eq_ok_iff.mpr ⟨_, hjoined, rfl⟩, rfl, run_append "uql" ⟨"uql", stages⟩ ⟨"uql", others⟩⟩

theorem parse_bar_count :
    ∃ p q joined, (parse .standard "where ok").outcome.1 = .ok p ∧
      (parse .standard "count |").outcome.1 = .ok q ∧
      Token.lex "where ok" true = .ok ([⟨.ident "where", 0⟩] ++ [⟨.ident "ok", 6⟩]) ∧
      Token.ident "ok" ≠ .symbol "|" ∧
      (parse .standard "where ok | count |").outcome.1 = .ok joined ∧
      joined.stages = p.stages ++ q.stages ∧
      joined.stages.map Stage.verb = ["where", "count"] ∧
      ∀ input, ((joined.run input).outcome.1, (joined.run input).outcome.2.warnings) =
        p.runInTurn q input := by
  obtain ⟨p, hp, hverb⟩ : ∃ p, (parse .standard "where ok").outcome.1 = .ok p ∧
      p.stages.map Stage.verb = ["where"] := exists_of_map_eq_ok (by decide +kernel)
  obtain ⟨q, hq, hnextVerb⟩ : ∃ q, (parse .standard "count |").outcome.1 = .ok q ∧
      q.stages.map Stage.verb = ["count"] := exists_of_map_eq_ok (by decide +kernel)
  have hlex : Token.lex "where ok" true = .ok ([⟨.ident "where", 0⟩] ++ [⟨.ident "ok", 6⟩]) := by
    decide +kernel
  obtain ⟨joined, hjoined, hstages, hrun⟩ := parse_bar .standard hp hq hlex (by decide)
  refine ⟨p, q, joined, hp, hq, hlex, by decide, hjoined, hstages, ?_, hrun⟩
  rw [hstages, List.map_append, hverb, hnextVerb]
  rfl

end Program
end Pipeline
end Tabulate
