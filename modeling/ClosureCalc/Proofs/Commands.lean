/-
What the commands on a file have in common.

All four read the file in the same way, and each prints only when nothing can go wrong
any more. A text that is parsed has all its tokens, so what passes the check is also
listed token by token.

* `Lists`: the rows that a printed text shows, read back column by column;
  `Token.shown`: the row that a token should have.
* `IsCell`: a text that fits between two bars; `Padded.stripped_eq`: it is read back from
  among spaces.
* `lists_tokens`: the tokens of a text are printed as a listing of their rows.
* `FileCommand.report_cases`: a report is an output or a failure.
* `FileCommand.output_error_cases`: a source that can be read fails with an error of its
  own, or with calls nested beyond the limit.
* `Agreement`: exit codes and texts of the four commands that go together;
  `commands_agree`: those of the commands on one file do.
-/
import Mathlib.Data.List.DropRight
import ClosureCalc.Command.Report
import ClosureCalc.Proofs.Errors

namespace ClosureCalc

/-! ### Listings read back -/

/-- Whether a character is a space. -/
def isSpace (c : Char) : Bool := c == ' '

/-- A text without the spaces at its ends. -/
def stripped (text : List Char) : List Char := (text.rdropWhile isSpace).dropWhile isSpace

/-- **The columns of a line**: what stands between its bars, without the spaces around it. -/
def columns (line : List Char) : List String :=
  (line.splitOn '|').map fun part => String.ofList (stripped part)

/-- **A text that lists rows** consists of lines with the columns of the rows, each with a
line feed behind it. -/
def Lists (text : String) (rows : List (List String)) : Prop :=
  ∃ lines, text.toList.splitOn '\n' = lines ++ [[]] ∧ lines.map columns = rows

/-- **What a listing shows of a token**: nothing in front of the first bar, then the line and
the column it begins at, what it carries, and its kind. -/
def Token.shown (t : Token) : List String :=
  ["", t.pos.line.repr ++ ":" ++ t.pos.column.repr, t.kind.payload.getD "", t.kind.name]

/-! ### Cells -/

/-- Whether a character can stand in a column: it is no space, no bar and no line feed. -/
def fitsColumn (c : Char) : Bool := c != ' ' && c != '|' && c != '\n'

/-- **A cell** is a text that can stand in a column. -/
def IsCell (text : List Char) : Prop := text.all fitsColumn = true

instance : DecidablePred IsCell := fun text =>
  inferInstanceAs (Decidable (text.all fitsColumn = true))

namespace IsCell

variable {u v : List Char}

lemma iff_forall : IsCell u ↔ ∀ c ∈ u, fitsColumn c = true := List.all_eq_true

@[simp]
lemma append_iff : IsCell (u ++ v) ↔ IsCell u ∧ IsCell v := by
  rw [IsCell, List.all_append, Bool.and_eq_true, IsCell, IsCell]

@[simp]
lemma cons_iff {c : Char} : IsCell (c :: u) ↔ fitsColumn c = true ∧ IsCell u := by
  rw [IsCell, List.all_cons, Bool.and_eq_true, IsCell]

lemma replicate {c : Char} (hc : fitsColumn c = true) (n : Nat) : IsCell (List.replicate n c) :=
  iff_forall.2 fun b hb => by rwa [List.eq_of_mem_replicate hb]

lemma sublist (h : IsCell v) (hsub : u.Sublist v) : IsCell u :=
  iff_forall.2 fun c hc => iff_forall.1 h c (hsub.subset hc)

/-- Characters of a sort that no space, bar and line feed is of make up a cell. -/
lemma of_forall {p : Char → Bool} (hspace : p ' ' = false) (hbar : p '|' = false)
    (hfeed : p '\n' = false) (h : ∀ c ∈ u, p c = true) : IsCell u := by
  refine iff_forall.2 fun c hc => ?_
  have hne : ∀ d, p d = false → c ≠ d := by
    rintro d hd rfl
    exact Bool.false_ne_true (hd.symm.trans (h c hc))
  simp [fitsColumn, hne _ hspace, hne _ hbar, hne _ hfeed]

/-- Digits make up a cell. -/
lemma repr (n : Nat) : IsCell n.repr.toList := by
  rw [Nat.toList_repr]
  have hdigit : ∀ c ∈ Nat.toDigits 10 n, c.isDigit = true :=
    fun c hc => Nat.isDigit_of_mem_toDigits (by decide) (by decide) hc
  exact of_forall rfl rfl rfl hdigit

end IsCell

/-- Digits make up a cell, also with a point between them or zeros around them. -/
lemma Style.isCell_writePositional {digits : List Char} (h : IsCell digits) (point : Int) :
    IsCell (plain.writePositional digits point) := by
  have hzero : fitsColumn '0' = true := rfl
  have hpoint : fitsColumn '.' = true := rfl
  have hzeros : ∀ n, IsCell (List.replicate n '0') := IsCell.replicate hzero
  simp only [writePositional, plain, Bool.false_eq_true, if_false, List.append_nil]
  split_ifs
  · simp only [List.cons_append, IsCell.cons_iff, IsCell.append_iff]
    exact ⟨hzero, hpoint, hzeros _, h⟩
  · exact IsCell.append_iff.2 ⟨h, hzeros _⟩
  · simp only [IsCell.append_iff, IsCell.cons_iff]
    exact ⟨h.sublist (List.take_sublist _ _), hpoint, h.sublist (List.drop_sublist _ _)⟩

/-- The text of a number is a cell. -/
lemma Style.isCell_write (x : Float) : IsCell (plain.write x).toList := by
  unfold write
  split
  · decide
  · rw [String.toList_ofList, IsCell.append_iff]
    constructor
    · split <;> decide
    · split
      · decide
      · split
        · decide
        · exact isCell_writePositional (.repr _) _

lemma Symbol.isCell_name (s : Symbol) : IsCell s.name.toList := by
  cases s <;> decide

lemma Keyword.isCell_name (k : Keyword) : IsCell k.name.toList := by
  cases k <;> decide

lemma Token.Kind.isCell_name (kind : Token.Kind) : IsCell kind.name.toList := by
  cases kind with
  | symbol s => exact s.isCell_name
  | keyword k => exact k.isCell_name
  | identifier name =>
    change IsCell "Identifier".toList
    decide
  | number value =>
    change IsCell "Number".toList
    decide
  | unexpected c =>
    change IsCell "Error".toList
    decide
  | endOfInput => decide

/-- Only stray characters are listed as errors. -/
lemma Token.Kind.name_eq_error_iff {kind : Token.Kind} :
    kind.name = "Error" ↔ ∃ c, kind = .unexpected c := by
  cases kind with
  | symbol s => cases s <;> simp [name, Symbol.name]
  | keyword k => cases k <;> simp [name, Keyword.name]
  | unexpected c => simp [name]
  | _ => simp [name]

/-- Only stray characters are shown as errors. -/
lemma Token.getLast?_shown {tok : Token} :
    tok.shown.getLast? = some "Error" ↔ ∃ c, tok.kind = .unexpected c :=
  Option.some_inj.trans Token.Kind.name_eq_error_iff

/-- **What a lexeme carries is a cell**: a name has no other characters, and neither a blank
nor a bar is a stray character. -/
lemma Lexeme.isCell_payload {c : Char} {rest : List Char} {kind : Token.Kind}
    (hc : isBlank c = false) (h : (first c rest).outcome = .ok kind) :
    IsCell (kind.payload.getD "").toList := by
  have hnone : IsCell "".toList := by decide
  unfold first at h
  split at h
  · unfold numeral at h
    generalize Numeral.read (c :: rest) = r at h
    obtain ⟨n, fault | value⟩ := r
    · cases h
    · cases h
      exact Style.isCell_write value
  · split at h
    · cases h
      unfold ofWord
      split
      · exact hnone
      · change IsCell (String.ofList ((c :: rest).takeWhile isNamePart)).toList
        rw [String.toList_ofList]
        exact .of_forall rfl rfl rfl fun b hb => List.mem_takeWhile_imp hb
    · split at h
      · cases h
        exact hnone
      · rename_i hsymbol
        cases h
        change IsCell (String.singleton c).toList
        rw [String.toList_singleton]
        refine IsCell.cons_iff.2 ⟨?_, by decide⟩
        have hspace : c ≠ ' ' := by
          rintro rfl
          cases hc
        have hfeed : c ≠ '\n' := by
          rintro rfl
          cases hc
        have hbar : c ≠ '|' := by
          rintro rfl
          exact List.find?_eq_none.1 hsymbol .bar (Symbol.mem_all _) rfl
        simp [fitsColumn, hspace, hbar, hfeed]

/-! ### Rows -/

/-- **A cell with spaces around it.** -/
def Padded (cell part : List Char) : Prop :=
  ∃ m n, part = List.replicate m ' ' ++ cell ++ List.replicate n ' '

namespace Padded

variable {cell part : List Char}

/-- One more space in front. -/
lemma cons (h : Padded cell part) : Padded cell (' ' :: part) := by
  obtain ⟨m, n, rfl⟩ := h
  exact ⟨m + 1, n, by simp [List.replicate_succ]⟩

/-- One more space behind. -/
lemma concat (h : Padded cell part) : Padded cell (part ++ [' ']) := by
  obtain ⟨m, n, rfl⟩ := h
  exact ⟨m, n + 1, by rw [List.replicate_succ', List.append_assoc]⟩

/-- Spaces in front, up to a width. -/
lemma leftpad (width : Nat) (cell : List Char) : Padded cell (cell.leftpad width ' ') :=
  ⟨width - cell.length, 0, by simp [List.leftpad]⟩

/-- What fits in no column is not among it, unless it is a space. -/
lemma not_mem {c : Char} (h : Padded cell part) (hcell : IsCell cell)
    (hspace : c ≠ ' ') (hc : fitsColumn c = false) : c ∉ part := by
  obtain ⟨m, n, rfl⟩ := h
  simp only [List.mem_append, List.mem_replicate, not_or, not_and]
  refine ⟨⟨fun _ => hspace, fun hmem => ?_⟩, fun _ => hspace⟩
  exact Bool.false_ne_true (hc.symm.trans (IsCell.iff_forall.1 hcell c hmem))

/-- Spaces behind a text do not matter to it. -/
lemma rdropWhile_append_spaces (text : List Char) (n : Nat) :
    (text ++ List.replicate n ' ').rdropWhile isSpace = text.rdropWhile isSpace := by
  induction n with
  | zero => rw [List.replicate_zero, List.append_nil]
  | succ n ih =>
    rw [List.replicate_succ', ← List.append_assoc, List.rdropWhile_concat_pos _ _ _ rfl, ih]

/-- **The cell is read back.** -/
lemma stripped_eq (h : Padded cell part) (hcell : IsCell cell) : stripped part = cell := by
  obtain ⟨m, n, rfl⟩ := h
  have hspaces : ∀ c ∈ List.replicate m ' ', isSpace c = true := by
    intro c hc
    rw [List.eq_of_mem_replicate hc]
    rfl
  have hsolid : ∀ c ∈ cell, ¬ isSpace c = true := by
    intro c hc heq
    have hfits := IsCell.iff_forall.1 hcell c hc
    rw [eq_of_beq heq] at hfits
    cases hfits
  rw [stripped, rdropWhile_append_spaces]
  by_cases hnil : cell = []
  · subst hnil
    rw [List.append_nil, List.rdropWhile_eq_nil_iff.2 hspaces, List.dropWhile_nil]
  · have hlast : (List.replicate m ' ' ++ cell).rdropWhile isSpace =
        List.replicate m ' ' ++ cell := by
      rw [List.rdropWhile_eq_self_iff]
      intro hne
      rw [List.getLast_append_of_ne_nil _ hnil]
      exact hsolid _ (List.getLast_mem hnil)
    rw [hlast, List.dropWhile_append_of_pos hspaces, List.dropWhile_eq_self_iff]
    intro hpos
    exact hsolid _ (List.getElem_mem hpos)

end Padded

/-- The place of a token is read back. -/
lemma Position.padded_label (p : Position) :
    Padded (p.line.repr ++ ":" ++ p.column.repr).toList p.label.toList := by
  refine ⟨3 - p.line.repr.toList.length, 3 - p.column.repr.toList.length, ?_⟩
  simp [label, List.leftpad, List.rightpad]

lemma Position.isCell (p : Position) :
    IsCell (p.line.repr ++ ":" ++ p.column.repr).toList := by
  have hcolon : IsCell ":".toList := by decide
  simp only [String.toList_append, IsCell.append_iff]
  exact ⟨⟨.repr _, hcolon⟩, .repr _⟩

/-- A row consists of its columns with bars between them. -/
lemma Token.toList_row (tok : Token) : tok.row.toList =
    ['|'].intercalate [[], ' ' :: (tok.pos.label.toList ++ [' ']),
      ' ' :: ((tok.kind.payload.getD "").toList.leftpad 30 ' ' ++ [' ']),
      ' ' :: tok.kind.name.toList.leftpad 10 ' '] := by
  simp [row, row.flushRight, List.intercalate]

/-- **A row shows its token** on one line. -/
lemma Token.columns_row {tok : Token} (hpayload : IsCell (tok.kind.payload.getD "").toList) :
    '\n' ∉ tok.row.toList ∧ columns tok.row.toList = tok.shown := by
  have hplace := tok.pos.padded_label.concat.cons
  have hcarried := (Padded.leftpad 30 (tok.kind.payload.getD "").toList).concat.cons
  have hkind := (Padded.leftpad 10 tok.kind.name.toList).cons
  have hempty : stripped [] = [] := rfl
  rw [toList_row]
  constructor
  · have hbar : '\n' ∉ ['|'] := by decide
    simp only [List.intercalate_cons_cons, List.intercalate_singleton, List.mem_append, not_or]
    exact ⟨⟨List.not_mem_nil, hbar⟩,
      ⟨hplace.not_mem tok.pos.isCell (by decide) rfl, hbar⟩,
      ⟨hcarried.not_mem hpayload (by decide) rfl, hbar⟩,
      hkind.not_mem tok.kind.isCell_name (by decide) rfl⟩
  · rw [columns, List.splitOn_intercalate]
    · simp only [List.map_cons, List.map_nil, hempty, hplace.stripped_eq tok.pos.isCell,
        hcarried.stripped_eq hpayload, hkind.stripped_eq tok.kind.isCell_name,
        String.ofList_toList]
      rfl
    · simp only [List.forall_mem_cons]
      exact ⟨List.not_mem_nil, hplace.not_mem tok.pos.isCell (by decide) rfl,
        hcarried.not_mem hpayload (by decide) rfl,
        hkind.not_mem tok.kind.isCell_name (by decide) rfl, by simp⟩
    · exact List.cons_ne_nil _ _

/-- What the tokens of a text carry are cells. -/
lemma isCell_payload_of_scan {cur mid : Cursor} {tok : Token} (h : cur.scan = .ok tok mid) :
    IsCell (tok.kind.payload.getD "").toList := by
  by_cases hkind : tok.kind = .endOfInput
  · rw [hkind]
    decide
  · obtain ⟨l, c, cs, -, -, hblank, hfirst⟩ := Cursor.exists_of_scan h hkind
    exact Lexeme.isCell_payload hblank (congrArg Lexeme.outcome hfirst)

lemma isCell_payload_of_tokenize {source : String} {toks : List Token}
    (h : tokenize source = .ok toks) :
    ∀ tok ∈ toks, IsCell (tok.kind.payload.getD "").toList := by
  intro tok htok
  obtain ⟨ts, mid, hts, ⟨eof, fin, hscan, heof⟩ | ⟨e, fin, hscan⟩⟩ :=
    Cursor.tokens_cases (Cursor.ofString source)
  · rw [tokenize_of_reads hts hscan heof] at h
    cases h
    rcases List.mem_append.1 htok with htok | htok
    · obtain ⟨us, mid', fin', -, hscan'⟩ := hts.exists_scan htok
      exact isCell_payload_of_scan hscan'
    · rw [List.mem_singleton.1 htok]
      exact isCell_payload_of_scan hscan
  · rw [tokenize_of_fails ⟨ts, mid, fin, hts, hscan⟩] at h
    cases h

/-- Lines are read back, if there is no line feed within one. -/
lemma FileCommand.splitOn_unlines {rows : List String} (h : ∀ row ∈ rows, '\n' ∉ row.toList) :
    (unlines rows).toList.splitOn '\n' = rows.map String.toList ++ [[]] := by
  rw [unlines, String.toList_join]
  induction rows with
  | nil => rfl
  | cons row rows ih =>
    obtain ⟨hrow, hrows⟩ := List.forall_mem_cons.1 h
    have hfeed : (row ++ "\n").toList = row.toList ++ ['\n'] := String.toList_append
    have hcut : ∀ rest, (row.toList ++ '\n' :: rest).splitOn '\n' =
        row.toList.splitOn '\n' ++ rest.splitOn '\n' :=
      fun rest => List.splitOnP_append_cons _ _ (beq_self_eq_true _)
    rw [List.map_cons, List.flatMap_cons, hfeed, List.append_assoc, List.singleton_append,
      hcut, ih hrows, List.splitOn_eq_singleton hrow]
    rfl

/-- **The tokens of a text are listed**, one row each. -/
lemma lists_tokens {source : String} {toks : List Token} (h : tokenize source = .ok toks) :
    Lists (FileCommand.unlines (toks.map Token.row)) (toks.map Token.shown) := by
  have hcells := isCell_payload_of_tokenize h
  refine ⟨(toks.map Token.row).map String.toList, FileCommand.splitOn_unlines ?_, ?_⟩
  · exact List.forall_mem_map.2 fun tok htok => (Token.columns_row (hcells tok htok)).1
  · simp only [List.map_map, List.map_inj_left, Function.comp_apply]
    exact fun tok htok => (Token.columns_row (hcells tok htok)).2

/-! ### Failures -/

namespace Report

/-- An error about a text has its own exit code. -/
lemma exitCode_of_kind {e : Error} (h : e.kind ≠ .io) : exitCode e = dataError := by
  cases e with
  | io fault => exact absurd rfl h
  | _ => rfl

/-- No error has the exit code of a success. -/
lemma exitCode_ne_zero (e : Error) : exitCode e ≠ 0 := by
  by_cases h : e.kind = .io
  · cases e with
    | io fault => exact Nat.succ_ne_zero _
    | _ => cases h
  · rw [exitCode_of_kind h]
    exact Nat.succ_ne_zero _

/-- A run that ended early has failed and shows no output. -/
lemma exit_ofStop (source : String) (stop : Stop) :
    (ofStop source stop).exit ≠ 0 ∧ (ofStop source stop).stdout = "" := by
  cases stop with
  | depth => exact ⟨Nat.succ_ne_zero _, rfl⟩
  | error e => exact ⟨exitCode_ne_zero e, rfl⟩

lemma exit_ofFileFault (path : String) (fault : FileFault) :
    (ofFileFault path fault).exit ≠ 0 := exitCode_ne_zero (.io fault)

end Report

namespace FileCommand

variable {c : FileCommand} {limit : Nat} {g : Generator} {path source : String} {file : File}

/-- What is put out is reported as a success. -/
lemma report_of_output {text : String} (htext : file.text = .ok source)
    (hout : c.output limit g source = .ok text) : c.report limit g path file = .success text := by
  simp only [report, htext, hout]

/-- What stops a command is reported against the source. -/
lemma report_of_stop {stop : Stop} (htext : file.text = .ok source)
    (hout : c.output limit g source = .error stop) :
    c.report limit g path file = .ofStop source stop := by
  simp only [report, htext, hout]

/-- A file that cannot be read is all that is reported. -/
lemma report_of_fault {fault : FileFault} (htext : file.text = .error fault) :
    c.report limit g path file = .ofFileFault path fault := by
  rw [report, htext]

/-- **A report is an output or a failure.** -/
lemma report_cases (c : FileCommand) (limit : Nat) (g : Generator) (path : String) (file : File) :
    (∃ source text, file.text = .ok source ∧ c.output limit g source = .ok text ∧
        c.report limit g path file = .success text) ∨
      (∃ source stop, file.text = .ok source ∧ c.output limit g source = .error stop ∧
        c.report limit g path file = .ofStop source stop) ∨
      ∃ fault, file.text = .error fault ∧ c.report limit g path file = .ofFileFault path fault := by
  cases htext : file.text with
  | error fault => exact .inr (.inr ⟨fault, rfl, report_of_fault htext⟩)
  | ok source =>
    cases hout : c.output limit g source with
    | ok text => exact .inl ⟨source, text, rfl, hout, report_of_output htext hout⟩
    | error stop => exact .inr (.inl ⟨source, stop, rfl, hout, report_of_stop htext hout⟩)

/-- What is not parsed fails in the same way for all commands that parse. -/
lemma output_of_parse_error {e : Error} (h : parse source = .error e) (hc : c ≠ .tokens) :
    c.output limit g source = .error (.error e) := by
  have hrun : runSource limit g source = .error (.error e) := by
    rw [runSource, Session.step, interpret, h]
    rfl
  cases c with
  | run => rw [output, hrun]; rfl
  | check => rw [output, h]; rfl
  | tokens => exact absurd rfl hc
  | ast => rw [output, h]; rfl

/-- What is parsed is summed up and drawn. -/
lemma output_of_parse_ok {p : Program} (h : parse source = .ok p) :
    (∃ text, check.output limit g source = .ok text) ∧
      ∃ text, ast.output limit g source = .ok text := by
  simp only [output, h]
  exact ⟨⟨_, rfl⟩, ⟨_, rfl⟩⟩

/-- An error of the parser is about the text. -/
lemma kind_of_parse_error {e : Error} (h : parse source = .error e) : e.kind ≠ .io := by
  obtain ⟨fault, p, rfl⟩ | ⟨fault, p, rfl⟩ := parse_error_cases h
  · simp [Error.kind]
  · simp [Error.kind]

/-- An error of a run is about the text. -/
lemma kind_of_runSource_error {e : Error} (h : runSource limit g source = .error (.error e)) :
    e.kind ≠ .io := by
  cases hp : parse source with
  | error e' =>
    have hrun : run.output limit g source = .error (.error e') :=
      output_of_parse_error hp (by decide)
    rw [output, h] at hrun
    cases hrun
    exact kind_of_parse_error hp
  | ok program =>
    have hstep : ((Session.standard g).step releaseOnExit limit source).1 = .error (.error e) := by
      rw [runSource] at h
      cases hres : ((Session.standard g).step releaseOnExit limit source).1 with
      | error stop =>
        rw [hres] at h
        cases h
        rfl
      | ok evaluation =>
        rw [hres] at h
        cases h
    obtain ⟨hkind, -⟩ := (Session.fresh_standard g).blames limit [] hp hstep
    rcases hkind with hkind | hkind | hkind <;> simp [hkind]

/-- **A source that can be read** fails with an error about the text, unless it is run and
calls are nested beyond the limit. -/
lemma output_error_cases {stop : Stop} (h : c.output limit g source = .error stop) :
    (∃ e, stop = .error e ∧ e.kind ≠ .io) ∨ c = run ∧ runSource limit g source = .error .depth := by
  cases c with
  | run =>
    rw [output] at h
    cases hrun : runSource limit g source with
    | ok value =>
      rw [hrun] at h
      cases h
    | error stop' =>
      rw [hrun] at h
      cases h
      cases stop with
      | error e => exact .inl ⟨e, rfl, kind_of_runSource_error hrun⟩
      | depth => exact .inr ⟨rfl, rfl⟩
  | tokens =>
    rw [output] at h
    cases htoks : tokenize source with
    | ok toks =>
      rw [htoks] at h
      cases h
    | error e =>
      rw [htoks] at h
      cases h
      obtain ⟨ts, mid, fin, -, hscan⟩ := fails_of_tokenize_error htoks
      obtain ⟨fault, p, rfl⟩ := Cursor.scan_error hscan
      exact .inl ⟨_, rfl, by simp [Error.kind]⟩
  | check | ast =>
    cases hp : parse source with
    | ok p =>
      rw [output, hp] at h
      cases h
    | error e =>
      rw [output, hp] at h
      cases h
      exact .inl ⟨e, rfl, kind_of_parse_error hp⟩

/-- A command never shows output beside a failure. -/
lemma report_unmixed (c : FileCommand) :
    ((c.report limit g path file).exit = 0 → (c.report limit g path file).stderr = "") ∧
      ((c.report limit g path file).exit ≠ 0 → (c.report limit g path file).stdout = "") := by
  obtain ⟨_, text, -, -, h⟩ | ⟨source, stop, -, -, h⟩ | ⟨fault, -, h⟩ :=
    report_cases c limit g path file
  · rw [h]
    exact ⟨fun _ => rfl, fun hne => absurd rfl hne⟩
  · obtain ⟨hexit, hout⟩ := Report.exit_ofStop source stop
    rw [h]
    exact ⟨fun hzero => absurd hzero hexit, fun _ => hout⟩
  · rw [h]
    exact ⟨fun hzero => absurd hzero (Report.exit_ofFileFault path fault), fun _ => rfl⟩

/-- A file that can be read gives a success, or an error in its text. -/
lemma exit_of_readable (htext : file.text = .ok source)
    (hends : c = .run → runSource limit g source ≠ .error .depth) :
    (c.report limit g path file).exit = 0 ∨ (c.report limit g path file).exit = 65 := by
  obtain ⟨_, text, -, -, h⟩ | ⟨_, stop, hsource, hstop, h⟩ | ⟨fault, hfault, -⟩ :=
    c.report_cases limit g path file
  · rw [h]
    exact .inl rfl
  · cases htext.symm.trans hsource
    rw [h]
    obtain ⟨e, rfl, hkind⟩ | ⟨hrun, hdepth⟩ := output_error_cases hstop
    · exact .inr (Report.exitCode_of_kind hkind)
    · exact absurd hdepth (hends hrun)
  · cases htext.symm.trans hfault

/-- **What does not pass the check** fails in the same way if it is to be drawn or run. -/
lemma report_eq_check (h : (check.report limit g path file).exit ≠ 0) (hc : c ≠ .tokens) :
    c.report limit g path file = check.report limit g path file := by
  cases htext : file.text with
  | error fault => rw [report_of_fault htext, report_of_fault htext]
  | ok source =>
    cases hp : parse source with
    | error e =>
      rw [report_of_stop htext (output_of_parse_error hp hc),
        report_of_stop htext (output_of_parse_error hp (by decide))]
    | ok p =>
      have hcheck : ∃ text, check.output limit g source = .ok text := (output_of_parse_ok hp).1
      obtain ⟨text, hout⟩ := hcheck
      rw [report_of_output htext hout] at h
      exact absurd rfl h

/-- **What passes the check** is parsed. -/
lemma exists_parse_of_check (h : (check.report limit g path file).exit = 0) :
    ∃ source p, file.text = .ok source ∧ parse source = .ok p := by
  cases htext : file.text with
  | error fault =>
    rw [report_of_fault htext] at h
    exact absurd h (Report.exit_ofFileFault path fault)
  | ok source =>
    cases hp : parse source with
    | error e =>
      rw [report_of_stop htext (output_of_parse_error hp (by decide))] at h
      exact absurd h (Report.exit_ofStop source (.error e)).1
    | ok p => exact ⟨source, p, rfl, hp⟩

/-- The tokens of a text are put out row by row. -/
lemma report_tokens {toks : List Token} (htext : file.text = .ok source)
    (htoks : tokenize source = .ok toks) :
    tokens.report limit g path file = .success (unlines (toks.map Token.row)) :=
  report_of_output htext (by rw [output, htoks]; rfl)

/-- A source that is parsed has all its tokens, and no stray character among them. -/
lemma exists_tokenize_of_parse {p : Program} (h : parse source = .ok p) :
    ∃ toks, tokenize source = .ok toks ∧
      ∀ tok ∈ toks, tok.shown.getLast? ≠ some "Error" := by
  obtain ⟨toks, htoks, hstray⟩ := tokenize_of_parse h
  refine ⟨toks, htoks, fun tok htok hlast => ?_⟩
  obtain ⟨c, hc⟩ := Token.getLast?_shown.1 hlast
  exact hstray tok htok c hc

/-- What passes the check is drawn, and fails to be drawn otherwise. -/
lemma ast_agrees : (ast.report limit g path file).exit = (check.report limit g path file).exit ∧
    ((check.report limit g path file).exit ≠ 0 →
      (ast.report limit g path file).stderr = (check.report limit g path file).stderr) := by
  by_cases h : (check.report limit g path file).exit = 0
  · obtain ⟨source, p, htext, hp⟩ := exists_parse_of_check h
    obtain ⟨-, text, hout⟩ := output_of_parse_ok hp
    rw [h, report_of_output htext hout]
    exact ⟨rfl, fun hne => absurd rfl hne⟩
  · have hsame : ast.report limit g path file = check.report limit g path file :=
      report_eq_check h (by decide)
    exact ⟨congrArg Report.exit hsame, fun _ => congrArg Report.stderr hsame⟩

end FileCommand

/-! ### The commands together -/

/-- **Reports of the commands on one file that agree.** None of them mixes output with a
message. If the file cannot be read, they are all the same. Otherwise a failure is an
error in the source, as long as a run keeps within the limit of nested calls. What does
not pass the check is neither drawn nor run, with the same message. A text whose tokens
are listed has one row for each of them, with its place, what it carries and its kind, and
the kind is `Error` for stray characters only. What passes the check is drawn and listed,
and no row of it is an error. -/
structure Agreement (limit : Nat) (g : Generator) (file : File) (report : FileCommand → Report) :
    Prop where
  unmixed (c : FileCommand) : ((report c).exit = 0 → (report c).stderr = "") ∧
    ((report c).exit ≠ 0 → (report c).stdout = "")
  unreadable (fault : FileFault) (h : file.text = .error fault) :
    ∃ message, ∀ c, report c = ⟨74, "", message⟩
  readable (source : String) (h : file.text = .ok source) (c : FileCommand)
    (hends : c = .run → FileCommand.runSource limit g source ≠ .error .depth) :
    (report c).exit = 0 ∨ (report c).exit = 65
  ast : (report .ast).exit = (report .check).exit ∧
    ((report .check).exit ≠ 0 → (report .ast).stderr = (report .check).stderr)
  run (h : (report .check).exit ≠ 0) :
    (report .run).exit = (report .check).exit ∧ (report .run).stderr = (report .check).stderr
  listed (source : String) (toks : List Token) (h : file.text = .ok source)
    (htoks : tokenize source = .ok toks) : (report .tokens).exit = 0 ∧
      (report .tokens).stdout = FileCommand.unlines (toks.map Token.row) ∧
      Lists (report .tokens).stdout (toks.map Token.shown) ∧
      ∀ tok ∈ toks, tok.shown.getLast? = some "Error" ↔ ∃ c, tok.kind = .unexpected c
  tokens (h : (report .check).exit = 0) : (report .tokens).exit = 0 ∧
    ∃ source toks, file.text = .ok source ∧ tokenize source = .ok toks ∧
      Lists (report .tokens).stdout (toks.map Token.shown) ∧
      ∀ row ∈ toks.map Token.shown, row.getLast? ≠ some "Error"

/-- **The commands on a file agree**, whatever is found where the file should be. -/
theorem commands_agree (limit : Nat) (g : Generator) (path : String) (file : File) :
    Agreement limit g file fun c => c.report limit g path file where
  unmixed := FileCommand.report_unmixed
  unreadable fault h := ⟨_, fun c => FileCommand.report_of_fault h⟩
  readable source h c hends := FileCommand.exit_of_readable h hends
  ast := FileCommand.ast_agrees
  run h := by
    have hsame : FileCommand.run.report limit g path file =
        FileCommand.check.report limit g path file := FileCommand.report_eq_check h (by decide)
    exact ⟨congrArg Report.exit hsame, congrArg Report.stderr hsame⟩
  listed source toks h htoks := by
    simp only [FileCommand.report_tokens h htoks]
    exact ⟨rfl, rfl, lists_tokens htoks, fun tok _ => Token.getLast?_shown⟩
  tokens h := by
    obtain ⟨source, p, htext, hp⟩ := FileCommand.exists_parse_of_check h
    obtain ⟨toks, htoks, hstray⟩ := FileCommand.exists_tokenize_of_parse hp
    simp only [FileCommand.report_tokens htext htoks]
    exact ⟨rfl, source, toks, htext, htoks, lists_tokens htoks, List.forall_mem_map.2 hstray⟩

/-- A text that is run, one with stray characters, one that is refused, and a directory. -/
theorem commands_agree_directory :
    let report := fun file c => FileCommand.report c 4 ⟨0⟩ "f" file
    let parsed : File := .bytes "x # 1e".toUTF8
    let stray : File := .bytes "(2 @".toUTF8
    let refused : File := .bytes "(2 @ 1e".toUTF8
    (report parsed .check).exit = 0 ∧ (report parsed .check).stderr = "" ∧
      ((report parsed .tokens).exit = 0 ∧ ∃ source toks, parsed.text = .ok source ∧
        tokenize source = .ok toks ∧ Lists (report parsed .tokens).stdout (toks.map Token.shown) ∧
        ∀ row ∈ toks.map Token.shown, row.getLast? ≠ some "Error") ∧
      Lists (report stray .tokens).stdout [["", "1:1", "", "LeftParen"],
        ["", "1:2", "2", "Number"], ["", "1:4", "@", "Error"], ["", "1:5", "", "EOF"]] ∧
      ((report refused .check).exit = 65 ∧ (report refused .check).stdout = "" ∧
        (report refused .run).exit = (report refused .check).exit ∧
        (report refused .run).stderr = (report refused .check).stderr) ∧
      ∃ message, ∀ c, report .directory c = ⟨74, "", message⟩ := by
  intro report parsed stray refused
  have hparsed := commands_agree 4 ⟨0⟩ "f" parsed
  have hstray := commands_agree 4 ⟨0⟩ "f" stray
  have hrefused := commands_agree 4 ⟨0⟩ "f" refused
  have hdirectory := commands_agree 4 ⟨0⟩ "f" .directory
  have hok : (report parsed .check).exit = 0 := by decide +kernel
  have htext : stray.text = .ok "(2 @" := by decide +kernel
  have htoks : tokenize "(2 @" = .ok [⟨.symbol .leftParen, ⟨0, 1, 1⟩⟩,
      ⟨.number 2, ⟨1, 1, 2⟩⟩, ⟨.unexpected '@', ⟨3, 1, 4⟩⟩, ⟨.endOfInput, ⟨4, 1, 5⟩⟩] := by
    decide +kernel
  have hexit : (report refused .check).exit = 65 := by decide +kernel
  have hfailed : (report refused .check).exit ≠ 0 := by
    rw [hexit]
    decide
  obtain ⟨-, -, hlists, -⟩ := hstray.listed _ _ htext htoks
  exact ⟨hok, (hparsed.unmixed .check).1 hok, hparsed.tokens hok, hlists,
    ⟨hexit, (hrefused.unmixed .check).2 hfailed, hrefused.run hfailed⟩,
    hdirectory.unreadable .isDirectory rfl⟩

end ClosureCalc
