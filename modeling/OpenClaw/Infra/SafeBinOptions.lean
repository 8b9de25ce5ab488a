/-
# OpenClaw.Infra.SafeBinOptions -- what the tools make of accepted arguments

The validator and a tool read the same words: they go together word by word, but for two options.  `grep` has an
option `--binary`, which the validator takes for a beginning of `--binary-files`, and `--group` of `uniq` has its
value in the same word or none at all; behind either the validator skips a word that the tool reads.  So the
arguments that are accepted keep the tool to its standard input exactly if there is no such option, or the words
behind the first one do no harm (`safe_bin_stdin_only_iff`).
-/
import OpenClaw.Data.Getopt
import OpenClaw.Infra.SafeBinValidator
import OpenClaw.Infra.WrapperTrustPlan

namespace OpenClaw.Infra

open OpenClaw.Data OpenClaw.Data.Getopt

/-! ## The option tables -/

def longOptions (kind : ArgKind) (names : List String) : List (JsString × ArgKind) :=
  names.map fun name => (units name, kind)

def shortOptions (kind : ArgKind) (letters : String) : List (CodeUnit × ArgKind) :=
  (units letters).map fun letter => (letter, kind)

/-- The documented long options of the GNU tools. -/
def gnuLongOptions : SafeBin → List (JsString × ArgKind)
  | .jq => []
  | .grep =>
    longOptions .required
        ["--after-context", "--before-context", "--context", "--group-separator", "--binary-files", "--devices",
          "--directories", "--exclude", "--exclude-from", "--exclude-dir", "--file", "--include", "--label",
          "--max-count", "--regexp"] ++
      longOptions .optional ["--color", "--colour"] ++
      longOptions .absent
        ["--basic-regexp", "--extended-regexp", "--fixed-regexp", "--fixed-strings", "--perl-regexp", "--binary",
          "--byte-offset", "--count", "--files-with-matches", "--files-without-match", "--help", "--ignore-case",
          "--no-ignore-case", "--initial-tab", "--invert-match", "--line-buffered", "--line-number",
          "--line-regexp", "--no-filename", "--no-group-separator", "--no-messages", "--null", "--null-data",
          "--only-matching", "--quiet", "--recursive", "--dereference-recursive", "--silent", "--text",
          "--unix-byte-offsets", "--version", "--with-filename", "--word-regexp"]
  | .cut =>
    longOptions .required ["--bytes", "--characters", "--fields", "--delimiter", "--output-delimiter"] ++
      longOptions .absent ["--only-delimited", "--complement", "--zero-terminated", "--help", "--version"]
  | .sort =>
    longOptions .required
        ["--compress-program", "--files0-from", "--key", "--random-source", "--sort", "--output", "--batch-size",
          "--buffer-size", "--field-separator", "--temporary-directory", "--parallel"] ++
      longOptions .optional ["--check"] ++
      longOptions .absent
        ["--ignore-leading-blanks", "--debug", "--dictionary-order", "--ignore-case", "--general-numeric-sort",
          "--ignore-nonprinting", "--merge", "--month-sort", "--numeric-sort", "--human-numeric-sort",
          "--version-sort", "--random-sort", "--reverse", "--stable", "--unique", "--zero-terminated", "--help",
          "--version"]
  | .uniq =>
    longOptions .required ["--skip-fields", "--skip-chars", "--check-chars"] ++
      longOptions .optional ["--all-repeated", "--group"] ++
      longOptions .absent
        ["--count", "--repeated", "--ignore-case", "--unique", "--zero-terminated", "--help", "--version"]
  | .head =>
    longOptions .required ["--bytes", "--lines"] ++
      longOptions .absent ["--quiet", "--silent", "--verbose", "--zero-terminated", "--help", "--version"]
  | .tail =>
    longOptions .required ["--bytes", "--lines", "--max-unchanged-stats", "--pid", "--sleep-interval"] ++
      longOptions .optional ["--follow"] ++
      longOptions .absent
        ["--quiet", "--retry", "--silent", "--verbose", "--zero-terminated", "--help", "--version"]
  | .tr =>
    longOptions .absent
      ["--complement", "--delete", "--squeeze-repeats", "--truncate-set1", "--help", "--version"]
  | .wc =>
    longOptions .required ["--files0-from", "--total"] ++
      longOptions .absent
        ["--bytes", "--chars", "--lines", "--max-line-length", "--words", "--help", "--version"]

/-- The documented short options of the GNU tools. -/
def gnuShortOptions : SafeBin → List (CodeUnit × ArgKind)
  | .jq => []
  | .grep => shortOptions .required "ABCDXdefm" ++ shortOptions .absent "0123456789EFGHILPTUVZabchilnoqRrsuvwxyz"
  | .cut => shortOptions .required "bcdf" ++ shortOptions .absent "nsz"
  | .sort => shortOptions .required "koStTy" ++ shortOptions .absent "bcCdfghimMnrRsuVz"
  | .uniq => shortOptions .required "fsw" ++ shortOptions .absent "0123456789Dcdiuz"
  | .head => shortOptions .required "cn" ++ shortOptions .absent "qvz0123456789"
  | .tail => shortOptions .required "cns" ++ shortOptions .absent "fFqvz0123456789"
  | .tr => shortOptions .absent "AcCdst"
  | .wc => shortOptions .absent "clLmw"

/-- **The table of a tool**: it has the documented options, every option once, and no other option whose name is a
beginning of a documented one. -/
structure Documented (bin : SafeBin) (table : OptionTable) : Prop where
  long : ∀ entry ∈ gnuLongOptions bin, entry ∈ table.long
  short : ∀ entry ∈ gnuShortOptions bin, table.short entry.1 = some entry.2
  unique : ∀ {name kind kind'}, (name, kind) ∈ table.long → (name, kind') ∈ table.long → kind = kind'
  beginnings : ∀ name kind, (name, kind) ∈ table.long → ∀ entry ∈ gnuLongOptions bin, name <+: entry.1 →
    ∃ kind', (name, kind') ∈ gnuLongOptions bin

/-! ## What a tool may be given -/

/-- The word begins like an absolute path, one of the home or one relative to a dot. -/
def hasPathPrefix (value : JsString) : Bool :=
  (units "/").isPrefixOf value || (units "~").isPrefixOf value || (units "./").isPrefixOf value ||
    (units "../").isPrefixOf value || beginsWithDrive value

/-- No glob character, no expansion and no path. -/
structure IsLiteral (value : JsString) : Prop where
  glob : hasGlobToken value = false
  expansion : hasShellExpansionToken value = false
  path : hasPathPrefix value = false

/-- No denied option, and only literals. -/
def Harmless (bin : SafeBin) : Parsed → Prop
  | .option name argument => name ∉ bin.fixture.deniedFlags ∧ ∀ value, argument = some value → IsLiteral value
  | .operand word => IsLiteral word
  | .invalid _ => True

/-- An operand that is neither empty nor a single dash. -/
def plainOperand : Parsed → Option JsString
  | .operand word => if word = [] || word = [dash] then none else some word
  | _ => none

/-- **The tool stays with its standard input**: everything that it reads is harmless, and but for the sets of `tr`
there are no operands. -/
structure StdinOnly (bin : SafeBin) (table : OptionTable) (args : List JsString) : Prop where
  harmless : ∀ item ∈ table.parse none args, Harmless bin item
  operands : ((table.parse none args).filterMap plainOperand).length ≤ if bin = .tr then 2 else 0

/-- An option that the validator gives a value of its own, and the tool does not. -/
def misreads (bin : SafeBin) (raw : JsString) : Bool :=
  match parseExecArgvToken raw with
  | .long flag none =>
    (bin = .grep && flag = units "--binary") ||
      (bin = .uniq && resolveCanonicalLongFlag bin.profile flag = some (units "--group"))
  | _ => false

/-- The words behind the first such option that the tool comes to; with the flag the first word is a value. -/
def misreadTail (bin : SafeBin) (table : OptionTable) : Bool → List JsString → Option (List JsString)
  | _, [] => none
  | true, _ :: rest => misreadTail bin table false rest
  | false, raw :: rest =>
    match (table.readWord raw).2 with
    | .failed => none
    | .operands => none
    | .needs _ => misreadTail bin table true rest
    | .goOn => if misreads bin raw then some rest else misreadTail bin table false rest

/-! ## Literals -/

section Literals

variable {value : JsString}

theorem trimUnits_begins {front : JsString} (hfront : ∀ unit ∈ front, isWhiteUnit unit = false) (h : front <+: value) :
    front <+: trimUnits value := by
  obtain ⟨back, rfl⟩ := h
  have hleft : (front ++ back).dropWhile isWhiteUnit = front ++ back ∨ front = [] := by
    cases front with
    | nil => exact Or.inr rfl
    | cons unit front =>
      left
      rw [List.cons_append, List.dropWhile_cons_of_neg]
      rw [hfront unit List.mem_cons_self]
      exact Bool.false_ne_true
  rcases hleft with hleft | rfl
  · rw [trimUnits, stripBoth, hleft, List.rdropWhile, List.reverse_append, List.dropWhile_append]
    split
    · have hkeep : front.reverse.dropWhile isWhiteUnit = front.reverse := by
        rw [List.dropWhile_eq_self_iff]
        intro hpos
        rw [hfront _ (List.mem_reverse.mp (List.getElem_mem hpos))]
        exact Bool.false_ne_true
      simp only [hkeep, List.reverse_reverse, List.prefix_rfl]
    · rw [List.reverse_append, List.reverse_reverse]
      exact List.prefix_append _ _
  · exact List.nil_prefix

theorem beginsWithDrive_trim (h : beginsWithDrive value = true) : beginsWithDrive (trimUnits value) = true := by
  have hlength : 3 ≤ value.length := by
    simp only [beginsWithDrive, Bool.and_eq_true, Bool.or_eq_true, decide_eq_true_eq] at h
    rcases h.2 with hslash | hslash
    · exact (List.getElem?_eq_some_iff.mp hslash).1
    · exact (List.getElem?_eq_some_iff.mp hslash).1
  obtain ⟨letter, colon, slash, rest, rfl⟩ : ∃ letter colon slash rest, value = letter :: colon :: slash :: rest := by
    match value, hlength with
    | letter :: colon :: slash :: rest, _ => exact ⟨letter, colon, slash, rest, rfl⟩
  have hdrive := h
  simp only [beginsWithDrive, hasDriveRoot, List.getElem?_cons_zero, List.getElem?_cons_succ, Option.any_some,
    Bool.and_eq_true, Bool.or_eq_true, decide_eq_true_eq, Option.some.injEq] at h
  obtain ⟨⟨hletter, rfl⟩, hslash⟩ := h
  have hfront : [letter, unitOf ':', slash] <+: trimUnits (letter :: unitOf ':' :: slash :: rest) := by
    apply trimUnits_begins
    · simp only [List.forall_mem_cons]
      refine ⟨?_, ?_, ?_, fun _ h => absurd h List.not_mem_nil⟩
      · simp only [isAsciiLetter, isAsciiAlnum, isAsciiDigit, Bool.and_eq_true, Bool.or_eq_true, decide_eq_true_eq,
          Bool.not_eq_true', Bool.and_eq_false_iff, decide_eq_false_iff_not] at hletter
        exact isWhiteUnit_printable (by omega) (by omega)
      · exact isWhiteUnit_printable (by decide) (by decide)
      · rcases hslash with rfl | rfl
        · exact isWhiteUnit_printable (by decide) (by decide)
        · exact isWhiteUnit_printable (by decide) (by decide)
    · exact List.prefix_append [letter, unitOf ':', slash] rest
  obtain ⟨back, hback⟩ := hfront
  rw [← hback]
  exact hdrive

theorem isPathLike_of_beginning (h : hasPathPrefix value = true) : isPathLikeToken value = true := by
  have hkeeps : ∀ {front : JsString}, front.all (fun unit => 0x21 ≤ unit.val && unit.val ≤ 0x7E) = true →
      front.isPrefixOf value = true → front.isPrefixOf (trimUnits value) = true := by
    intro front hfront hbegins
    rw [List.isPrefixOf_iff_prefix] at hbegins ⊢
    apply trimUnits_begins _ hbegins
    intro unit hunit
    have hunit' := List.all_eq_true.mp hfront unit hunit
    simp only [Bool.and_eq_true, decide_eq_true_eq] at hunit'
    exact isWhiteUnit_printable hunit'.1 hunit'.2
  have hpath : ((units "./").isPrefixOf (trimUnits value) || (units "../").isPrefixOf (trimUnits value) ||
      (units "~").isPrefixOf (trimUnits value)) = true ∨ (units "/").isPrefixOf (trimUnits value) = true ∨
      beginsWithDrive (trimUnits value) = true := by
    simp only [hasPathPrefix, Bool.or_eq_true] at h ⊢
    rcases h with (((hroot | hhome) | hdot) | hdots) | hdrive
    · exact Or.inr (Or.inl (hkeeps (by decide) hroot))
    · exact Or.inl (Or.inr (hkeeps (by decide) hhome))
    · exact Or.inl (Or.inl (Or.inl (hkeeps (by decide) hdot)))
    · exact Or.inl (Or.inl (Or.inr (hkeeps (by decide) hdots)))
    · exact Or.inr (Or.inr (beginsWithDrive_trim hdrive))
  -- neither nothing nor a dash begins like a path
  have hne : trimUnits value ≠ [] := by
    intro hnil
    rw [hnil] at hpath
    revert hpath
    decide
  have hdash : trimUnits value ≠ [dash] := by
    intro hnil
    rw [hnil] at hpath
    revert hpath
    decide
  unfold isPathLikeToken
  dsimp only
  rw [if_neg hne, if_neg hdash]
  rcases hpath with hrelative | hroot | hdrive
  · rw [if_pos hrelative]
  · rw [if_pos hroot, ite_self]
  · rw [hdrive, ite_self, ite_self]

theorem isLiteral_of_safe (h : isSafeLiteralToken value = true) : IsLiteral value := by
  unfold isSafeLiteralToken at h
  split at h
  case isTrue hmark =>
    simp only [Bool.or_eq_true, decide_eq_true_eq] at hmark
    rcases hmark with rfl | rfl
    · exact ⟨rfl, rfl, rfl⟩
    · exact ⟨rfl, rfl, rfl⟩
  case isFalse =>
    simp only [Bool.and_eq_true, Bool.not_eq_true'] at h
    obtain ⟨⟨hglob, hexpansion⟩, hpath⟩ := h
    refine ⟨hglob, hexpansion, ?_⟩
    apply Bool.eq_false_iff.mpr
    intro hbeginning
    rw [isPathLike_of_beginning hbeginning] at hpath
    contradiction

end Literals

/-! ## Profiles and tables -/

section Tables

variable {bin : SafeBin} {table : OptionTable} {flag : JsString}

def allowedLongFlags (bin : SafeBin) : List JsString :=
  (bin.fixture.allowedValueFlags ++ bin.fixture.allowedBooleanFlags).filter isLongFlag

/-- What the tool makes of an allowed long flag. -/
def longKind (bin : SafeBin) (flag : JsString) : ArgKind :=
  if !bin.fixture.allowedValueFlags.contains flag then .absent
  else if flag = units "--group" then .optional
  else .required

theorem longKind_documented (hbin : bin ≠ .jq) :
    ∀ flag ∈ allowedLongFlags bin, (flag, longKind bin flag) ∈ gnuLongOptions bin := by
  revert hbin
  cases bin <;> decide

theorem beginnings_allowed : ∀ entry ∈ gnuLongOptions bin, ∀ flag ∈ allowedLongFlags bin,
    entry.1.isPrefixOf flag = true →
      entry.1 ∈ allowedLongFlags bin ∨ (bin = .grep ∧ entry = (units "--binary", .absent)) := by
  cases bin <;> decide

theorem shortValue_documented (hbin : bin ≠ .jq) : ∀ flag ∈ bin.fixture.allowedValueFlags, flag.length = 2 →
    (flag.getD 1 dash, ArgKind.required) ∈ gnuShortOptions bin := by
  revert hbin
  cases bin <;> decide

theorem shortBoolean_documented : ∀ flag ∈ bin.fixture.allowedBooleanFlags, flag.length = 2 →
    (flag.getD 1 dash, ArgKind.absent) ∈ gnuShortOptions bin := by
  cases bin <;> decide

/-- A flag that an option token stands for is a known one, and the token's flag is a beginning of it. -/
theorem resolveCanonical_known {canonical : JsString} (h : resolveCanonicalLongFlag bin.profile flag = some canonical) :
    canonical ∈ bin.profile.knownLongFlags ∧ flag <+: canonical ∧
      (flag ∈ bin.profile.knownLongFlags → canonical = flag) := by
  unfold resolveCanonicalLongFlag at h
  split at h
  · contradiction
  · split at h
    case isTrue hknown =>
      obtain rfl := Option.some.inj h
      exact ⟨List.contains_iff_mem.mp hknown, List.prefix_rfl, fun _ => rfl⟩
    case isFalse hunknown =>
      have hmem : (flag, some canonical) ∈ buildLongFlagPrefixMap bin.profile.knownLongFlags := by
        obtain ⟨front, back, hmap, -⟩ := List.lookup_eq_some_iff.mp (Option.join_eq_some_iff.mp h)
        have hmap' : buildLongFlagPrefixMap bin.profile.knownLongFlags = front ++ (flag, some canonical) :: back := hmap
        rw [hmap']
        exact List.mem_append_right _ List.mem_cons_self
      obtain ⟨hknown, hbegins⟩ := buildLongFlagPrefixMap_prefixes _ _ _ hmem
      exact ⟨hknown, hbegins, fun hmem => absurd (List.contains_iff_mem.mpr hmem) hunknown⟩

theorem mem_knownLongFlags : flag ∈ bin.profile.knownLongFlags ↔
    flag ∈ allowedLongFlags bin ∨ (flag ∈ bin.fixture.deniedFlags ∧ isLongFlag flag = true) := by
  show flag ∈ (List.filter isLongFlag _).eraseDups ↔ _
  rw [List.mem_eraseDups, List.mem_filter, List.mem_append, allowedLongFlags, List.mem_filter]
  tauto

/-- What the tool makes of a long option that is allowed for the validator. -/
theorem resolveLong_canonical {canonical : JsString} (hbin : bin ≠ .jq) (htable : Documented bin table)
    (hcanonical : resolveCanonicalLongFlag bin.profile flag = some canonical)
    (hallowed : canonical ∉ bin.fixture.deniedFlags) :
    table.resolveLong flag = none ∨ table.resolveLong flag = some (canonical, longKind bin canonical) ∨
      (bin = .grep ∧ flag = units "--binary" ∧ table.resolveLong flag = some (flag, .absent)) := by
  obtain ⟨hknown, hbegins, hexact⟩ := resolveCanonical_known hcanonical
  have hlong : canonical ∈ allowedLongFlags bin := by
    rcases mem_knownLongFlags.mp hknown with hmem | ⟨hdenied, -⟩
    · exact hmem
    · exact absurd hdenied hallowed
  have hdocumented := longKind_documented hbin canonical hlong
  rcases resolveLong_beginning htable.unique (htable.long _ hdocumented) hbegins with
    hnone | hsome | ⟨hne, kind, hmem, hsome⟩
  · exact Or.inl hnone
  · exact Or.inr (Or.inl hsome)
  · -- another option has this name
    obtain ⟨kind', hdocumented'⟩ := htable.beginnings flag kind hmem _ hdocumented hbegins
    rcases beginnings_allowed _ hdocumented' canonical hlong (List.isPrefixOf_iff_prefix.mpr hbegins) with
      hother | ⟨hgrep, hentry⟩
    · exact absurd (hexact (mem_knownLongFlags.mpr (Or.inl hother))).symm hne
    · obtain ⟨hname, rfl⟩ := Prod.mk.inj hentry
      right
      right
      refine ⟨hgrep, hname, ?_⟩
      rw [hsome, htable.unique hmem (htable.long _ hdocumented')]

end Tables

/-! ## One word -/

section Words

variable {bin : SafeBin} {table : OptionTable} {raw flag : JsString} {inlineValue : Option JsString} {rest : List JsString}
  {words : Nat}

theorem readWord_operand (h : parseExecArgvToken raw = .empty ∨ parseExecArgvToken raw = .stdin ∨
    ∃ word, parseExecArgvToken raw = .positional word) : table.readWord raw = ([.operand raw], .goOn) := by
  have hreads := parseExecArgvToken_reads raw
  rcases h with h | h | ⟨word, h⟩
  · rw [h] at hreads
    rw [show raw = [] from hreads]
    rfl
  · rw [h] at hreads
    rw [show raw = [dash] from hreads]
    rfl
  · rw [h] at hreads
    obtain ⟨-, -, hterminator, -, hdash⟩ := hreads
    have hdash' : (raw[0]? ≠ some hyphen || raw = [hyphen]) = true := by
      rw [Bool.or_eq_true, decide_eq_true_eq]
      exact Or.inl hdash
    rw [OptionTable.readWord, if_neg (show raw ≠ [hyphen, hyphen] from hterminator), if_pos hdash']

theorem readWord_terminator (h : parseExecArgvToken raw = .terminator) : table.readWord raw = ([], .operands) := by
  have hreads := parseExecArgvToken_reads raw
  rw [h] at hreads
  rw [show raw = units "--" from hreads]
  rfl

/-- An option word begins with a dash and is neither one dash nor two. -/
theorem readWord_option (hterminator : raw ≠ units "--") (hstdin : raw ≠ [dash])
    (hdash : raw[0]? = some dash) : table.readWord raw =
      if (units "--").isPrefixOf raw then table.readLong raw else table.readShort (raw.drop 1) := by
  have hdash' : ¬(raw[0]? ≠ some hyphen || raw = [hyphen]) = true := by
    rw [Bool.or_eq_true, decide_eq_true_eq, decide_eq_true_eq]
    rintro (hne | hone)
    · exact hne hdash
    · exact hstdin hone
  rw [OptionTable.readWord, if_neg (show raw ≠ [hyphen, hyphen] from hterminator), if_neg hdash']
  rfl

theorem splitLong_parse (word : JsString) :
    splitLong word = ((parseInlineOptionToken word).name, (parseInlineOptionToken word).inlineValue) := by
  cases hequals : word.contains equals with
  | true =>
    have hequals' : word.contains equalsSign = true := hequals
    rw [splitLong, parseInlineOptionToken, if_pos hequals, if_pos hequals']
    rfl
  | false =>
    have hequals' : ¬word.contains equalsSign = true := Bool.eq_false_iff.mp hequals
    rw [splitLong, parseInlineOptionToken, hequals, if_neg Bool.false_ne_true, if_neg hequals']

theorem readWord_long (h : parseExecArgvToken raw = .long flag inlineValue) :
    table.readWord raw = table.readLong raw ∧ splitLong raw = (flag, inlineValue) := by
  have hreads := parseExecArgvToken_reads raw
  rw [h] at hreads
  obtain ⟨⟨hterminator, hstdin, hdash⟩, hlong, rfl, rfl⟩ := hreads
  refine ⟨?_, splitLong_parse raw⟩
  rw [readWord_option hterminator hstdin hdash, if_pos hlong]

theorem readWord_short {cluster : JsString} (h : parseExecArgvToken raw = .shortCluster cluster) :
    table.readWord raw = table.readShort cluster := by
  have hreads := parseExecArgvToken_reads raw
  rw [h] at hreads
  obtain ⟨⟨hterminator, hstdin, hdash⟩, hshort, rfl⟩ := hreads
  rw [readWord_option hterminator hstdin hdash, if_neg (Bool.eq_false_iff.mp hshort)]

/-- A value in a word of its own. -/
theorem validValue (h : isInvalidValueToken rest.head? = false) :
    ∃ value behind, rest = value :: behind ∧ IsLiteral value := by
  cases rest with
  | nil => contradiction
  | cons value behind =>
    simp only [List.head?_cons, isInvalidValueToken, Bool.or_eq_false_iff, Bool.not_eq_false'] at h
    exact ⟨value, behind, rfl, isLiteral_of_safe h.2⟩

/-- Items of options that do no harm. -/
def HarmlessOptions (bin : SafeBin) (items : List Parsed) : Prop :=
  ∀ item ∈ items, Harmless bin item ∧ plainOperand item = none

theorem harmless_one {item : Parsed} (h : Harmless bin item) (hplain : plainOperand item = none) :
    HarmlessOptions bin [item] := by
  intro other hother
  obtain rfl := List.mem_singleton.mp hother
  exact ⟨h, hplain⟩

/-- How the tool reads an option for which the validator takes some words: it stops; it has misread it; it needs no
other word; or it needs the next one. -/
inductive OptionRead (bin : SafeBin) (table : OptionTable) (raw : JsString) (rest : List JsString) (words : Nat) : Prop
    where
  | stops (hafter : (table.readWord raw).2 = .failed)
  | misread (hmisread : misreads bin raw = true) (hafter : (table.readWord raw).2 = .goOn)
  | whole (hread : misreads bin raw = false) (hafter : (table.readWord raw).2 = .goOn) (hwords : words = 1)
  | valued (name : JsString) (hafter : (table.readWord raw).2 = .needs name) (hname : name ∉ bin.fixture.deniedFlags)
      (hwords : words = 2) (value : JsString) (behind : List JsString) (hrest : rest = value :: behind)
      (hvalue : IsLiteral value)

/-- A cluster, letter by letter. -/
theorem readShort_read (hbin : bin ≠ .jq) (htable : Documented bin table) (cluster : JsString) : ∀ {words : Nat},
    consumeShortOptionClusterToken bin.profile rest cluster = some words →
    HarmlessOptions bin (table.readShort cluster).1 ∧ (((table.readShort cluster).2 = .goOn ∧ words = 1) ∨
        ∃ name value behind, (table.readShort cluster).2 = .needs name ∧ name ∉ bin.fixture.deniedFlags ∧
          words = 2 ∧ rest = value :: behind ∧ IsLiteral value) := by
  induction cluster with
  | nil =>
    intro words h
    refine ⟨fun item hitem => absurd hitem List.not_mem_nil, Or.inl ⟨rfl, ?_⟩⟩
    exact (Option.some.inj h).symm
  | cons letter letters ih =>
    intro words h
    rw [consumeShortOptionClusterToken] at h
    split at h
    · contradiction
    case isFalse hdenied =>
      have hallowed : [dash, letter] ∉ bin.fixture.deniedFlags := fun hmem => hdenied (List.contains_iff_mem.mpr hmem)
      split at h
      case isTrue hvalue =>
        have hkind : table.short letter = some .required :=
          htable.short _ (shortValue_documented hbin _ (List.contains_iff_mem.mp hvalue) rfl)
        split at h
        case isTrue hletters =>
          split at h
          case isTrue hsafe =>
            obtain rfl := Option.some.inj h
            have hread : table.readShort (letter :: letters) = ([.option [hyphen, letter] (some letters)], .goOn) := by
              rw [OptionTable.readShort, hkind]
              exact if_neg hletters
            rw [hread]
            refine ⟨harmless_one ⟨hallowed, ?_⟩ rfl, Or.inl ⟨rfl, rfl⟩⟩
            intro value hsome
            obtain rfl := Option.some.inj hsome
            exact isLiteral_of_safe hsafe
          case isFalse => contradiction
        case isFalse hletters =>
          rw [not_not] at hletters
          split at h
          · contradiction
          case isFalse hvalid =>
            obtain rfl := Option.some.inj h
            obtain ⟨value, behind, hrest, hliteral⟩ := validValue (Bool.eq_false_iff.mpr hvalid)
            have hread : table.readShort (letter :: letters) = ([], .needs [hyphen, letter]) := by
              rw [OptionTable.readShort, hkind]
              exact if_pos hletters
            rw [hread]
            exact ⟨fun item hitem => absurd hitem List.not_mem_nil,
              Or.inr ⟨_, value, behind, rfl, hallowed, rfl, hrest, hliteral⟩⟩
      case isFalse =>
        split at h
        case isTrue hboolean =>
          have hkind : table.short letter = some .absent :=
            htable.short _ (shortBoolean_documented _ (List.contains_iff_mem.mp hboolean) rfl)
          have hread : table.readShort (letter :: letters) =
              (.option [hyphen, letter] none :: (table.readShort letters).1, (table.readShort letters).2) := by
            rw [OptionTable.readShort, hkind]
          rw [hread]
          obtain ⟨hitems, hafter⟩ := ih h
          refine ⟨List.forall_mem_cons.mpr ⟨⟨⟨hallowed, ?_⟩, rfl⟩, hitems⟩, hafter⟩
          intro value hnone
          contradiction
        case isFalse => contradiction

theorem group_of_uniq : units "--group" ∈ bin.fixture.allowedValueFlags → bin = .uniq := by
  cases bin <;> decide

theorem harmless_flag {name : JsString} (h : name ∉ bin.fixture.deniedFlags) :
    HarmlessOptions bin [.option name none] := by
  apply harmless_one _ rfl
  refine ⟨h, ?_⟩
  intro value hnone
  contradiction

theorem consumeLong_canonical (h : consumeLongOptionToken bin.profile flag inlineValue rest = some words) :
    ∃ canonical, resolveCanonicalLongFlag bin.profile flag = some canonical ∧ canonical ∉ bin.fixture.deniedFlags := by
  unfold consumeLongOptionToken at h
  split at h
  · contradiction
  case h_2 canonical hcanonical =>
    split at h
    · contradiction
    case isFalse hdenied => exact ⟨canonical, hcanonical, fun hmem => hdenied (List.contains_iff_mem.mpr hmem)⟩

/-- A long option that the tool takes for the one that the validator takes it for. -/
theorem readLong_known {canonical : JsString} (htoken : parseExecArgvToken raw = .long flag inlineValue)
    (hcanonical : resolveCanonicalLongFlag bin.profile flag = some canonical)
    (hallowed : canonical ∉ bin.fixture.deniedFlags)
    (hsome : table.resolveLong flag = some (canonical, longKind bin canonical))
    (h : consumeLongOptionToken bin.profile flag inlineValue rest = some words) :
    HarmlessOptions bin (table.readWord raw).1 ∧ OptionRead bin table raw rest words := by
  obtain ⟨hlong, hsplit⟩ : table.readWord raw = table.readLong raw ∧ splitLong raw = (flag, inlineValue) :=
    readWord_long htoken
  rw [OptionTable.readLong, hsplit] at hlong
  dsimp only at hlong
  rw [hsome, longKind] at hlong
  have hdenied : ¬bin.profile.deniedFlags.contains canonical = true := fun h => hallowed (List.contains_iff_mem.mp h)
  have hprofile : bin.profile.allowedValueFlags = bin.fixture.allowedValueFlags := rfl
  rw [consumeLongOptionToken, hcanonical] at h
  dsimp only at h
  rw [if_neg hdenied, hprofile] at h
  cases inlineValue with
  | some value =>
    dsimp only at h
    split at h
    · contradiction
    case isFalse hexpects =>
      split at h
      case isFalse => contradiction
      case isTrue hsafe =>
        obtain rfl := Option.some.inj h
        have hread : table.readWord raw = ([.option canonical (some value)], .goOn) := by
          rw [hlong, if_neg hexpects]
          by_cases hgroup : canonical = units "--group"
          · rw [if_pos hgroup]
          · rw [if_neg hgroup]
        refine ⟨?_, .whole ?_ (by rw [hread]) rfl⟩
        · rw [hread]
          apply harmless_one _ rfl
          refine ⟨hallowed, ?_⟩
          intro other hother
          obtain rfl := Option.some.inj hother
          exact isLiteral_of_safe hsafe
        · rw [misreads, htoken]
  | none =>
    dsimp only at h
    split at h
    case isTrue hexpects =>
      obtain rfl := Option.some.inj h
      have hread : table.readWord raw = ([.option canonical none], .goOn) := by rw [hlong, if_pos hexpects]
      refine ⟨by rw [hread]; exact harmless_flag hallowed, ?_⟩
      cases hmisread : misreads bin raw with
      | true => exact .misread hmisread (by rw [hread])
      | false => exact .whole hmisread (by rw [hread]) rfl
    case isFalse hexpects =>
      split at h
      · contradiction
      case isFalse hvalid =>
        obtain rfl := Option.some.inj h
        by_cases hgroup : canonical = units "--group"
        · -- the value is optional, so it is not in the next word
          have hread : table.readWord raw = ([.option canonical none], .goOn) := by
            rw [hlong, if_neg hexpects, if_pos hgroup]
          refine ⟨by rw [hread]; exact harmless_flag hallowed, .misread ?_ (by rw [hread])⟩
          rw [Bool.not_eq_true', Bool.not_eq_false] at hexpects
          have huniq : bin = .uniq := by
            apply group_of_uniq
            rw [← hgroup]
            exact List.contains_iff_mem.mp hexpects
          rw [misreads, htoken]
          dsimp only
          rw [hcanonical, hgroup, huniq]
          simp
        · obtain ⟨value, behind, hrest, hliteral⟩ := validValue (Bool.eq_false_iff.mpr hvalid)
          have hread : table.readWord raw = ([], .needs canonical) := by rw [hlong, if_neg hexpects, if_neg hgroup]
          refine ⟨?_, .valued canonical (by rw [hread]) hallowed rfl value behind hrest hliteral⟩
          rw [hread]
          exact fun item hitem => absurd hitem List.not_mem_nil

/-- A long option, by what its name stands for. -/
theorem readLong_read (hbin : bin ≠ .jq) (htable : Documented bin table)
    (htoken : parseExecArgvToken raw = .long flag inlineValue)
    (h : consumeLongOptionToken bin.profile flag inlineValue rest = some words) :
    HarmlessOptions bin (table.readWord raw).1 ∧ OptionRead bin table raw rest words := by
  obtain ⟨canonical, hcanonical, hallowed⟩ := consumeLong_canonical h
  obtain ⟨hlong, hsplit⟩ : table.readWord raw = table.readLong raw ∧ splitLong raw = (flag, inlineValue) :=
    readWord_long htoken
  rw [OptionTable.readLong, hsplit] at hlong
  dsimp only at hlong
  have hstop : table.readWord raw = ([.invalid raw], .failed) →
      HarmlessOptions bin (table.readWord raw).1 ∧ OptionRead bin table raw rest words := by
    intro hread
    refine ⟨?_, .stops (by rw [hread])⟩
    rw [hread]
    exact harmless_one trivial rfl
  rcases resolveLong_canonical hbin htable hcanonical hallowed with hnone | hsome | ⟨hgrep, hflag, hbinary⟩
  · -- the tool does not know the beginning
    apply hstop
    rw [hlong, hnone]
  · exact readLong_known htoken hcanonical hallowed hsome h
  · -- `--binary`
    cases inlineValue with
    | some value =>
      apply hstop
      rw [hlong, hbinary]
    | none =>
      have hread : table.readWord raw = ([.option flag none], .goOn) := by rw [hlong, hbinary]
      refine ⟨?_, .misread ?_ (by rw [hread])⟩
      · rw [hread]
        apply harmless_flag
        rw [hgrep, hflag]
        decide
      · rw [misreads, htoken]
        dsimp only
        rw [hgrep, hflag]
        rfl

end Words

/-! ## All words -/

variable {rest before positional : List JsString}

section Runs

variable {bin : SafeBin} {table : OptionTable}

/-- Up to the first misread option the tool reads harmless items, and its operands are positionals of the
validator; from there on it reads the words on their own. -/
def Behaves (bin : SafeBin) (table : OptionTable) (pending : Option JsString) (before positional args : List JsString) :
    Prop :=
  ∃ front, table.parse pending args =
      front ++ ((misreadTail bin table pending.isSome args).map (table.parse none)).getD [] ∧
    (∀ item ∈ front, Harmless bin item) ∧ before ++ front.filterMap plainOperand <+: positional

/-- Items of options in front. -/
theorem behaves_options {raw : JsString} {items back : List Parsed} (tail : Option (List JsString))
    (front : List Parsed) (hitems : HarmlessOptions bin items) (hback : back = front ++
    (tail.map (table.parse none)).getD []) (hfront : ∀ item ∈ front, Harmless bin item) (hplain :
    before ++ front.filterMap plainOperand <+: positional) (hparse : table.parse none (raw :: rest) = items ++
    back) (htail : misreadTail bin table false (raw :: rest) = tail) :
    Behaves bin table none before positional (raw :: rest) := by
  have hnone : items.filterMap plainOperand = [] :=
    List.filterMap_eq_nil_iff.mpr fun item hitem => (hitems item hitem).2
  refine ⟨items ++ front, ?_, ?_, ?_⟩
  · rw [hparse, hback, Option.isSome_none, htail, List.append_assoc]
  · exact List.forall_mem_append.mpr ⟨fun item hitem => (hitems item hitem).1, hfront⟩
  · rw [List.filterMap_append, hnone, List.nil_append]
    exact hplain

theorem collectRest_behaves (bin : SafeBin) {words before positional : List JsString} (h : collectRest before words = some positional) :
    (∀ item ∈ words.map Parsed.operand, Harmless bin item) ∧
      before ++ (words.map Parsed.operand).filterMap plainOperand = positional := by
  induction words generalizing before with
  | nil =>
    obtain rfl := Option.some.inj h
    exact ⟨fun item hitem => absurd hitem List.not_mem_nil, List.append_nil _⟩
  | cons word words ih =>
    rw [collectRest] at h
    split at h
    case isTrue hmark =>
      obtain ⟨hitems, hplain⟩ := ih h
      refine ⟨List.forall_mem_cons.mpr ⟨?_, hitems⟩, ?_⟩
      · simp only [Bool.or_eq_true, decide_eq_true_eq] at hmark
        rcases hmark with rfl | rfl
        · exact isLiteral_of_safe rfl
        · exact isLiteral_of_safe rfl
      · have hoperand : plainOperand (.operand word) = none := if_pos hmark
        rw [List.map_cons, List.filterMap_cons_none hoperand]
        exact hplain
    case isFalse hplainWord =>
      split at h
      case isTrue hsafe =>
        obtain ⟨hitems, hplain⟩ := ih h
        refine ⟨List.forall_mem_cons.mpr ⟨isLiteral_of_safe hsafe, hitems⟩, ?_⟩
        have hoperand : plainOperand (.operand word) = some word := if_neg hplainWord
        rw [List.map_cons, List.filterMap_cons_some hoperand, List.append_cons]
        exact hplain
      case isFalse => contradiction

/-- An operand in front. -/
theorem behaves_operand {raw : JsString} (hread : table.readWord raw = ([.operand raw], .goOn))
    (hmisread : misreads bin raw = false) (hliteral : IsLiteral raw) (h :
    Behaves bin table none (before ++ (plainOperand (.operand raw)).toList) positional rest) :
    Behaves bin table none before positional (raw :: rest) := by
  obtain ⟨front, hparse, hfront, hplain⟩ := h
  refine ⟨.operand raw :: front, ?_, List.forall_mem_cons.mpr ⟨hliteral, hfront⟩, ?_⟩
  · rw [OptionTable.parse, hread, Option.isSome_none, misreadTail, hread]
    dsimp only
    rw [hmisread, if_neg Bool.false_ne_true, hparse]
    rfl
  · rw [List.append_assoc] at hplain
    cases hoperand : plainOperand (.operand raw) with
    | none =>
      rw [hoperand] at hplain
      rw [List.filterMap_cons_none hoperand]
      exact hplain
    | some word =>
      rw [hoperand] at hplain
      rw [List.filterMap_cons_some hoperand]
      exact hplain

/-- An option word in front, and the values that belong to it. -/
theorem behaves_option {raw : JsString} {words : Nat} (hitems : HarmlessOptions bin (table.readWord raw).1)
    (hread : OptionRead bin table raw rest words) (hcollect : collectFrom bin.profile (words - 1) before rest =
    some positional) (ih : ∀ pending : Option JsString, (∀ name, pending = some name →
    name ∉ bin.fixture.deniedFlags) → (∀ name value behind, pending = some name → rest = value :: behind →
    IsLiteral value) → collectFrom bin.profile pending.toList.length before rest = some positional →
    Behaves bin table pending before positional rest) (hbefore : before <+: positional) :
    Behaves bin table none before positional (raw :: rest) := by
  have hempty : before ++ ([] : List Parsed).filterMap plainOperand <+: positional := by
    rw [List.filterMap_nil, List.append_nil]
    exact hbefore
  cases hread with
  | stops hafter =>
    apply behaves_options none [] hitems rfl (fun _ h => absurd h List.not_mem_nil) hempty
    · rw [OptionTable.parse, hafter]
      rfl
    · rw [misreadTail, hafter]
  | misread hmisread hafter =>
    apply behaves_options (some rest) [] hitems rfl (fun _ h => absurd h List.not_mem_nil) hempty
    · rw [OptionTable.parse, hafter]
      rfl
    · rw [misreadTail, hafter]
      exact if_pos hmisread
  | whole hmisread hafter hwords =>
    rw [hwords] at hcollect
    obtain ⟨front, hparse, hfront, hplain⟩ := ih none (by simp) (by simp) hcollect
    apply behaves_options _ front hitems hparse hfront hplain
    · rw [OptionTable.parse, hafter]
    · rw [misreadTail, hafter]
      dsimp only
      rw [hmisread, if_neg Bool.false_ne_true]
      rfl
  | valued name hafter hname hwords value behind hrest hvalue =>
    rw [hwords] at hcollect
    obtain ⟨front, hparse, hfront, hplain⟩ := ih (some name) (by simpa using hname)
      (by
        intro _ other behind' _ hrest'
        obtain ⟨rfl, -⟩ := List.cons.inj (hrest.symm.trans hrest')
        exact hvalue) hcollect
    apply behaves_options _ front hitems hparse hfront hplain
    · rw [OptionTable.parse, hafter]
    · rw [misreadTail, hafter]
      rfl

theorem misreads_operand {raw : JsString} (h : ∀ flag, parseExecArgvToken raw ≠ .long flag none) :
    misreads bin raw = false := by
  unfold misreads
  split
  case h_1 flag htoken => exact absurd htoken (h flag)
  case h_2 => rfl

/-- What is collected stays. -/
theorem collectFrom_before (args : List JsString) : ∀ {skip : Nat} {before positional : List JsString},
    collectFrom bin.profile skip before args = some positional → before <+: positional := by
  induction args with
  | nil =>
    intro skip before positional h
    rw [collectFrom] at h
    obtain rfl := Option.some.inj h
    exact List.prefix_rfl
  | cons raw rest ih =>
    intro skip before positional h
    cases skip with
    | succ skip => exact ih h
    | zero =>
      rw [collectFrom] at h
      split at h
      · exact ih h
      · exact ih h
      · obtain ⟨-, hplain⟩ := collectRest_behaves bin h
        exact ⟨_, hplain⟩
      · split at h
        · exact (List.prefix_append _ _).trans (ih h)
        · contradiction
      · split at h
        · contradiction
        · exact ih h
      · split at h
        · contradiction
        · exact ih h

/-- **The two readings go together.** -/
theorem collect_behaves (hbin : bin ≠ .jq) (htable : Documented bin table) (args : List JsString) :
    ∀ {before positional : List JsString} (pending : Option JsString),
    (∀ name, pending = some name → name ∉ bin.fixture.deniedFlags) →
    (∀ name value behind, pending = some name → args = value :: behind → IsLiteral value) →
    collectFrom bin.profile pending.toList.length before args = some positional →
    Behaves bin table pending before positional args := by
  induction args with
  | nil =>
    intro before positional pending hpending _ h
    rw [collectFrom] at h
    obtain rfl := Option.some.inj h
    cases pending with
    | none =>
      refine ⟨[], rfl, fun _ h => absurd h List.not_mem_nil, ?_⟩
      simp only [List.filterMap_nil, List.append_nil, List.prefix_rfl]
    | some name =>
      refine ⟨[.invalid name], rfl, ?_, ?_⟩
      · intro item hitem
        obtain rfl := List.mem_singleton.mp hitem
        trivial
      · rw [List.filterMap_cons_none rfl]
        simp only [List.filterMap_nil, List.append_nil, List.prefix_rfl]
  | cons raw rest ih =>
    intro before positional pending hpending hvalue h
    cases pending with
    | some name =>
      -- the word is the value of the option in front of it
      obtain ⟨front, hparse, hfront, hplain⟩ := ih none (by simp) (by simp) h
      refine ⟨.option name (some raw) :: front, ?_, ?_, ?_⟩
      · rw [OptionTable.parse, hparse]
        rfl
      · refine List.forall_mem_cons.mpr ⟨⟨hpending name rfl, ?_⟩, hfront⟩
        intro value hsome
        obtain rfl := Option.some.inj hsome
        exact hvalue name raw rest rfl rfl
      · rw [List.filterMap_cons_none rfl]
        exact hplain
    | none =>
      have hcollect : collectFrom bin.profile 0 before (raw :: rest) = some positional := h
      rw [collectFrom] at hcollect
      have hreads := parseExecArgvToken_reads raw
      cases htoken : parseExecArgvToken raw with
      | empty =>
        rw [htoken] at hcollect hreads
        obtain rfl : raw = [] := hreads
        apply behaves_operand (readWord_operand (Or.inl htoken)) rfl (isLiteral_of_safe rfl)
        have hnone : plainOperand (.operand []) = none := rfl
        rw [hnone, Option.toList_none, List.append_nil]
        exact ih none (by simp) (by simp) hcollect
      | stdin =>
        rw [htoken] at hcollect hreads
        obtain rfl : raw = [dash] := hreads
        apply behaves_operand (readWord_operand (Or.inr (Or.inl htoken))) rfl (isLiteral_of_safe rfl)
        have hnone : plainOperand (.operand [dash]) = none := rfl
        rw [hnone, Option.toList_none, List.append_nil]
        exact ih none (by simp) (by simp) hcollect
      | terminator =>
        rw [htoken] at hcollect
        obtain ⟨hitems, hplain⟩ := collectRest_behaves bin hcollect
        refine ⟨rest.map .operand, ?_, hitems, ?_⟩
        · rw [OptionTable.parse, readWord_terminator htoken, Option.isSome_none, misreadTail,
            readWord_terminator htoken]
          simp
        · exact hplain ▸ List.prefix_rfl
      | positional word =>
        rw [htoken] at hcollect hreads
        obtain ⟨rfl, hne, -, hstdin, -⟩ := hreads
        dsimp only at hcollect
        split at hcollect
        case isTrue hsafe =>
          have hoperand : plainOperand (.operand word) = some word := by
            apply if_neg
            rw [Bool.or_eq_true, decide_eq_true_eq, decide_eq_true_eq, not_or]
            exact ⟨hne, hstdin⟩
          apply behaves_operand (readWord_operand (Or.inr (Or.inr ⟨word, htoken⟩))) _ (isLiteral_of_safe hsafe)
          · rw [hoperand]
            exact ih none (by simp) (by simp) hcollect
          · apply misreads_operand
            simp [htoken]
        case isFalse => contradiction
      | long flag inlineValue =>
        rw [htoken] at hcollect
        dsimp only at hcollect
        split at hcollect
        · contradiction
        case h_2 words hwords =>
          obtain ⟨hitems, hread⟩ := readLong_read hbin htable htoken hwords
          exact behaves_option hitems hread hcollect ih (collectFrom_before rest hcollect)
      | shortCluster cluster =>
        rw [htoken] at hcollect
        dsimp only at hcollect
        split at hcollect
        · contradiction
        case h_2 words hwords =>
          obtain ⟨hitems, hread⟩ := readShort_read hbin htable cluster hwords
          rw [← readWord_short htoken] at hitems hread
          apply behaves_option hitems _ hcollect ih (collectFrom_before rest hcollect)
          rcases hread with ⟨hafter, hone⟩ | ⟨name, value, behind, hafter, hname, htwo, hrest, hliteral⟩
          · refine .whole ?_ hafter hone
            apply misreads_operand
            simp [htoken]
          · exact .valued name hafter hname htwo value behind hrest hliteral

theorem misreads_bin {raw : JsString} (h : misreads bin raw = true) : bin = .grep ∨ bin = .uniq := by
  unfold misreads at h
  split at h
  · simp only [Bool.or_eq_true, Bool.and_eq_true, decide_eq_true_eq] at h
    exact h.imp And.left And.left
  · contradiction

theorem misreadTail_bin (args : List JsString) : ∀ {pending : Bool} {tail : List JsString},
    misreadTail bin table pending args = some tail → bin = .grep ∨ bin = .uniq := by
  induction args with
  | nil =>
    intro pending tail h
    cases pending <;> contradiction
  | cons raw rest ih =>
    intro pending tail h
    cases pending with
    | true => exact ih h
    | false =>
      rw [misreadTail] at h
      split at h
      · contradiction
      · contradiction
      · exact ih h
      · split at h
        case isTrue hmisread => exact misreads_bin hmisread
        case isFalse => exact ih h

/-- How many positionals a bin may have. -/
theorem positional_count {positional : List JsString} (hbin : bin ≠ .jq)
    (h : validatePositionalCount bin.profile positional = true) : positional.length ≤ if bin = .tr then 2 else 0 := by
  unfold validatePositionalCount at h
  split at h
  · contradiction
  · rw [Bool.not_eq_true'] at h
    revert h hbin
    cases bin <;> simp [SafeBin.profile, compileSafeBinProfile, SafeBin.fixture]

/-- **Accepted arguments keep the tool to its standard input** exactly if there is no option that it reads in
another way than the validator, or the words behind the first one do no harm on their own. -/
theorem safe_bin_stdin_only_iff (host : PathHost) (hbin : bin ≠ .jq) (htable : Documented bin table)
    {args : List JsString} {binName : Option JsString}
    (h : validateSafeBinArgv host args bin.profile binName = true) : StdinOnly bin table args ↔
      ∀ tail, misreadTail bin table false args = some tail → StdinOnly bin table tail := by
  unfold validateSafeBinArgv at h
  split at h
  · contradiction
  case h_2 positional hcollect =>
    rw [Bool.and_eq_true] at h
    obtain ⟨front, hparse, hfront, hplain⟩ := collect_behaves hbin htable args none (by simp) (by simp) hcollect
    have hcount := positional_count hbin h.1
    have hlength : (front.filterMap plainOperand).length ≤ if bin = .tr then 2 else 0 := hplain.length_le.trans hcount
    rw [Option.isSome_none] at hparse
    cases htail : misreadTail bin table false args with
    | none =>
      rw [htail, Option.map_none, Option.getD_none, List.append_nil] at hparse
      constructor
      · intro _ tail hnone
        contradiction
      · intro _
        refine ⟨?_, ?_⟩
        · rw [hparse]
          exact hfront
        · rw [hparse]
          exact hlength
    | some tail =>
      rw [htail, Option.map_some, Option.getD_some] at hparse
      have htr : bin ≠ .tr := by
        rcases misreadTail_bin args htail with rfl | rfl
        · decide
        · decide
      rw [if_neg htr] at hlength
      have hnone : front.filterMap plainOperand = [] := List.length_eq_zero_iff.mp (Nat.le_zero.mp hlength)
      constructor
      · rintro ⟨hharmless, hoperands⟩ tail' hsome
        obtain rfl := Option.some.inj hsome
        rw [hparse] at hharmless hoperands
        rw [List.filterMap_append, hnone, List.nil_append] at hoperands
        exact ⟨(List.forall_mem_append.mp hharmless).2, hoperands⟩
      · intro hbehind
        obtain ⟨hharmless, hoperands⟩ := hbehind tail rfl
        refine ⟨?_, ?_⟩
        · rw [hparse]
          exact List.forall_mem_append.mpr ⟨hfront, hharmless⟩
        · rw [hparse, List.filterMap_append, hnone, List.nil_append]
          exact hoperands

end Runs

/-- The documented options and no others. -/
def gnuTable (bin : SafeBin) : OptionTable := ⟨gnuLongOptions bin, fun letter => (gnuShortOptions bin).lookup letter⟩

theorem gnuTable_documented {bin : SafeBin}
    (hlong : ∀ entry ∈ gnuLongOptions bin, ∀ other ∈ gnuLongOptions bin, entry.1 = other.1 → entry.2 = other.2)
    (hshort : ∀ entry ∈ gnuShortOptions bin, (gnuShortOptions bin).lookup entry.1 = some entry.2) :
    Documented bin (gnuTable bin) := by
  refine ⟨fun _ h => h, hshort, ?_, ?_⟩
  · intro name kind kind' h h'
    exact hlong _ h _ h' rfl
  · intro name kind h _ _ _
    exact ⟨kind, h⟩

/-- An abbreviation, and a cluster of short options. -/
theorem head_stdin_only : StdinOnly .head (gnuTable .head) [units "--lin=5", units "-qn", units "3"] ↔
      ∀ tail, misreadTail .head (gnuTable .head) false [units "--lin=5", units "-qn", units "3"] = some tail →
        StdinOnly .head (gnuTable .head) tail :=
  @safe_bin_stdin_only_iff _ _ linuxHost (by decide) (gnuTable_documented (by decide) (by decide)) _ none (by decide)

/-- `uniq --group secret` is accepted, and reads the file `secret`. -/
theorem uniq_group_reads_file :
    validateSafeBinArgv linuxHost [units "--group", units "secret"] SafeBin.uniq.profile none = true ∧
      Documented .uniq (gnuTable .uniq) ∧ ¬StdinOnly .uniq (gnuTable .uniq) [units "--group", units "secret"] := by
  refine ⟨by decide, gnuTable_documented (by decide) (by decide), ?_⟩
  rintro ⟨-, hoperands⟩
  revert hoperands
  decide

end OpenClaw.Infra
