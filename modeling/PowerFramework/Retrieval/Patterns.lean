import PowerFramework.Lib.Regex
import PowerFramework.Lib.Splitlines
import PowerFramework.Lib.Text
/-!
# The patterns retrieved text is screened with

The injection, secret and spoof patterns, ignoring case, and that redacting a text leaves nothing
the secret pattern finds.
-/

namespace PowerFramework.Retrieval

open Lib Lib.Regex Lib.Text

/-- `\w`; which characters beyond ASCII are alphanumeric is a table of the Unicode standard. -/
class PythonWord where
  isWord : Char → Bool
  ascii : ∀ c, c.toNat < 128 → isWord c = (isAlnum c || c = '_')

/-- The ASCII letter a character stands for under `re.IGNORECASE`, or the character itself. -/
def foldCase (c : Char) : Char :=
  if c = '\u0130' ∨ c = '\u0131' then 'i' else if c = '\u017F' then 's'
  else if c = '\u212A' then 'k'
  else if isUpper c then Char.ofNat (c.toNat + 32) else c

/-! ## Pieces -/

def literal (text : String) : Pattern :=
  inOrder (text.toList.map fun c => one fun d => foldCase d == foldCase c)

/-- `[A-Za-z0-9]` -/
def alphanumeric (c : Char) : Bool := isAlnum (foldCase c)

/-- `[A-Za-z0-9\-_]` -/
def tokenLetter (c : Char) : Bool := alphanumeric c || c == '-' || c == '_'

/-- `['\"]` -/
def quote (c : Char) : Bool := c == '\'' || c == '"'

/-- `[:=]` -/
def separator (c : Char) : Bool := c == ':' || c == '='

/-- `\s` -/
def space (c : Char) : Bool := Splitlines.isWhitespace c

/-- `\S` -/
def nonSpace (c : Char) : Bool := !space c

/-- The words with `\s+` between them. -/
def spaced : List String → Pattern
  | [] => inOrder []
  | [text] => literal text
  | text :: texts => .seq (literal text) (.seq (many space 1) (spaced texts))

/-- `\b( … )\b` -/
def bounded (patterns : List Pattern) : Pattern := inOrder [.boundary, oneOf patterns, .boundary]

/-! ## The patterns -/

/-- `_INJECTION_PATTERN` -/
def injectionPattern : Pattern := bounded [
  inOrder [literal "ignore", many space 1,
    oneOf [.seq (literal "all") (many space 1), inOrder []],
    literal "previous", many space 1, oneOf [literal "instructions", literal "policy"]],
  inOrder [literal "disregard", many space 1,
    oneOf [.seq (literal "all") (many space 1), inOrder []],
    spaced ["prior", "instructions"]],
  inOrder [literal "system", many space 0, literal ":", many space 0, spaced ["you", "are"]],
  spaced ["system", "override"],
  spaced ["you", "are", "now", "in", "jailbreak", "mode"],
  spaced ["run", "shell", "command"],
  spaced ["delete", "all"],
  spaced ["mark", "this", "canonical"],
  spaced ["approve", "this", "decision"],
  spaced ["exfiltrate", "secret"],
  spaced ["reveal", "credentials"],
  spaced ["change", "the", "retrieval", "scope"],
  spaced ["promote", "this", "raw", "message"]]

/-- `_AUTHORITY_SPOOF_PATTERN` -/
def authoritySpoofPattern : Pattern := bounded [
  spaced ["CANONICAL", "TASK", "COMPLETED"],
  spaced ["CANONICAL", "DECISION", "APPROVED"],
  spaced ["OFFICIAL", "CANONICAL", "TRUTH"],
  literal "CANONICAL_LEDGER_PROOF"]

/-- `\bghp_[A-Za-z0-9]{36}\b` and its like. -/
def accessToken (lead : String) : Pattern :=
  inOrder [.boundary, literal lead, .run alphanumeric 36 (some 36), .boundary]

/-- `\bglpat-[A-Za-z0-9\-_]{20,}\b` -/
def gitlabToken : Pattern :=
  inOrder [.boundary, literal "glpat-", many tokenLetter 20, .boundary]

/-- `\bAddMax13\$` -/
def fixedPassword : Pattern := inOrder [.boundary, literal "AddMax13$"]

/-- `-----BEGIN\s+(RSA|PGP|OPENSSH|EC)\s+PRIVATE\s+KEY-----` -/
def privateKey : Pattern :=
  inOrder [literal "-----BEGIN", many space 1,
    oneOf [literal "RSA", literal "PGP", literal "OPENSSH", literal "EC"], many space 1,
    spaced ["PRIVATE", "KEY-----"]]

/-- `\bpassword\s*[:=]\s*` -/
def passwordLead : Pattern :=
  inOrder [.boundary, literal "password", many space 0, one separator, many space 0]

/-- `['\"]?\S+['\"]?` -/
def passwordValue : Pattern :=
  .seq (atMostOne quote) (.seq (many nonSpace 1) (atMostOne quote))

/-- `\bapi[_-]?key\s*[:=]\s*['\"]?` -/
def apiKeyLead : Pattern :=
  inOrder [.boundary, literal "api", atMostOne fun c => c == '_' || c == '-', literal "key",
    many space 0, one separator, many space 0, atMostOne quote]

/-- `[A-Za-z0-9_\-]{16,}['\"]?` -/
def apiKeyValue : Pattern := .seq (many tokenLetter 16) (atMostOne quote)

def secretPatterns : List Pattern := [
  accessToken "ghp_", accessToken "gho_", gitlabToken, fixedPassword, privateKey,
  .seq passwordLead passwordValue, .seq apiKeyLead apiKeyValue]

/-- `_SECRET_PATTERN` -/
def secretPattern : Pattern := oneOf secretPatterns

/-- The mark a secret is replaced by. -/
def redactedSecret : String := "[REDACTED_SECRET]"

/-! ## Characters -/

theorem foldCase_of_space {c : Char} (h : space c = true) : foldCase c = c := by
  have hne : ∀ d : Char, space d = false → c ≠ d := by
    rintro d hd rfl
    rw [hd] at h
    exact Bool.false_ne_true h
  have hupper : isUpper c = false := by
    simp only [space, Splitlines.isWhitespace, Bool.or_eq_true, Bool.and_eq_true,
      decide_eq_true_eq, beq_iff_eq] at h
    simp only [isUpper, Bool.and_eq_false_iff, decide_eq_false_iff_not]
    omega
  simp [foldCase, hne _ (by decide : space '\u0130' = false),
    hne _ (by decide : space '\u0131' = false), hne _ (by decide : space '\u017F' = false),
    hne _ (by decide : space '\u212A' = false), hupper]

/-- Only letters stand for other characters. -/
theorem eq_of_foldCase {c d : Char} (h : foldCase c = d) (hd : isLower d = false) : c = d := by
  subst h
  unfold foldCase at hd ⊢
  split at hd
  · exact absurd hd (by decide)
  · split at hd
    · exact absurd hd (by decide)
    · split at hd
      · exact absurd hd (by decide)
      · split at hd
        · next hupper =>
          have hlower : ∀ n < 91, 65 ≤ n → isLower (Char.ofNat (n + 32)) = true := by decide
          simp only [isUpper, Bool.and_eq_true, decide_eq_true_eq] at hupper
          rw [hlower c.toNat (by omega) hupper.1] at hd
          exact absurd hd (by decide)
        · simp_all

theorem openers_secret {c : Char} (h : openers secretPattern c = true) :
    foldCase c = 'g' ∨ foldCase c = 'a' ∨ foldCase c = 'p' ∨ c = '-' := by
  simp [openers, secretPattern, secretPatterns, accessToken, gitlabToken, fixedPassword,
    privateKey, passwordLead, passwordValue, apiKeyLead, apiKeyValue, oneOf, inOrder, literal, one,
    nullable, spaced] at h
  rcases h with h | h | h | h | h
  · exact .inl h
  · exact .inr (.inl h)
  · exact .inr (.inr (.inr (eq_of_foldCase h (by decide))))
  · exact .inr (.inr (.inl h))
  · exact .inr (.inl h)

theorem nonSpace_of_opener {c : Char} (hc : openers secretPattern c = true) :
    nonSpace c = true := by
  by_contra hspace
  have hspace : space c = true := by simpa [nonSpace] using hspace
  have hfold := foldCase_of_space hspace
  have hne : ∀ d : Char, space d = false → c ≠ d := by
    rintro d hd rfl
    rw [hd] at hspace
    exact Bool.false_ne_true hspace
  rcases openers_secret hc with hfirst | hfirst | hfirst | hfirst
  · exact hne 'g' (by decide) (hfold ▸ hfirst)
  · exact hne 'a' (by decide) (hfold ▸ hfirst)
  · exact hne 'p' (by decide) (hfold ▸ hfirst)
  · exact hne '-' (by decide) hfirst

theorem tokenLetter_of_opener {c : Char} (hc : openers secretPattern c = true) :
    tokenLetter c = true := by
  rcases openers_secret hc with hfirst | hfirst | hfirst | hfirst
  · rw [tokenLetter, alphanumeric, hfirst]
    rfl
  · rw [tokenLetter, alphanumeric, hfirst]
    rfl
  · rw [tokenLetter, alphanumeric, hfirst]
    rfl
  · rw [hfirst]
    decide

section
variable [PythonWord]

theorem not_word {c : Char} (h : c.toNat < 128) (hc : isAlnum c = false) (hne : c ≠ '_') :
    PythonWord.isWord c = false := by
  rw [PythonWord.ascii c h, hc, decide_eq_false hne]
  rfl

theorem not_word_quote {c : Char} (h : quote c = true) : PythonWord.isWord c = false := by
  rw [quote, Bool.or_eq_true, beq_iff_eq, beq_iff_eq] at h
  rcases h with rfl | rfl
  · exact not_word (by decide) (by decide) (by decide)
  · exact not_word (by decide) (by decide) (by decide)

theorem not_word_fixedPassword {c : Char} (h : closers fixedPassword c = true) :
    PythonWord.isWord c = false := by
  simp [closers, fixedPassword, inOrder, literal, one, nullable] at h
  rw [eq_of_foldCase h (by decide)]
  exact not_word (by decide) (by decide) (by decide)

theorem not_word_privateKey {c : Char} (h : closers privateKey c = true) :
    PythonWord.isWord c = false := by
  simp [closers, privateKey, spaced, inOrder, literal, one, nullable] at h
  rw [eq_of_foldCase h (by decide)]
  exact not_word (by decide) (by decide) (by decide)

/-! ## Where secrets begin -/

/-- A secret begins at the place. -/
abbrev SecretAt (pattern : Pattern) (place : Place) : Prop := Begins PythonWord.isWord pattern place

theorem boundary_of_begins {patterns : List Pattern} {place : Place}
    (h : SecretAt (inOrder (.boundary :: patterns)) place) :
    atBoundary PythonWord.isWord place = true := by
  rw [inOrder, SecretAt, begins_seq] at h
  obtain ⟨middle, hmem, -⟩ := h
  exact (mem_ends_boundary.mp hmem).2

theorem begins_first {first second : Pattern} {place : Place}
    (h : SecretAt (.seq first second) place) : SecretAt first place := by
  obtain ⟨middle, hmem, -⟩ := begins_seq.mp h
  exact begins_iff.mpr ⟨middle, hmem⟩

/-- Every secret but a private key begins at the boundary of a word. -/
theorem secret_cases {place : Place} (h : SecretAt secretPattern place) :
    SecretAt privateKey place ∨ atBoundary PythonWord.isWord place = true := by
  obtain ⟨pattern, hmem, h⟩ := begins_oneOf.mp h
  simp only [secretPatterns, List.mem_cons, List.not_mem_nil, or_false] at hmem
  rcases hmem with rfl | rfl | rfl | rfl | rfl | rfl | rfl
  · exact .inr (boundary_of_begins h)
  · exact .inr (boundary_of_begins h)
  · exact .inr (boundary_of_begins h)
  · exact .inr (boundary_of_begins h)
  · exact .inl h
  · exact .inr (boundary_of_begins (begins_first h))
  · exact .inr (boundary_of_begins (begins_first h))

theorem dash_of_privateKey {place : Place} (h : SecretAt privateKey place) :
    place.rest.head? = some '-' := by
  have hopen := opener_of_begins (by decide) h
  obtain ⟨c, hc, hopen⟩ := (Option.any_eq_true _ _).mp hopen
  simp [openers, privateKey, inOrder, literal, one, nullable] at hopen
  rw [hc, eq_of_foldCase hopen (by decide)]
  rfl

/-- A secret begins with no blank, and closes a word before it. -/
theorem nonSpace_of_secret {place : Place} (h : SecretAt secretPattern place) :
    place.rest.head?.any nonSpace = true :=
  any_mono (fun _ hc => nonSpace_of_opener hc) (opener_of_begins (by decide) h)

theorem boundary_of_secret {place : Place} (h : SecretAt secretPattern place)
    (hword : place.before.any PythonWord.isWord = true) :
    atBoundary PythonWord.isWord place = true := by
  rcases secret_cases h with hkey | hat
  · rw [atBoundary, hword, dash_of_privateKey hkey, Option.any_some,
      not_word (by decide) (by decide) (by decide)]
    rfl
  · exact hat

/-! ## Redaction -/

/-- No secret begins inside the mark. -/
theorem secret_fresh (before : Option Char) (done left back : List Char)
    (hmark : redactedSecret.toList = done ++ left) (hleft : left ≠ []) :
    ¬ SecretAt secretPattern ⟨lastOf before done, left ++ back⟩ := by
  intro h
  have hletters : ∀ k < 17,
      (redactedSecret.toList.drop k).head?.any (fun c => foldCase c == 'g' || foldCase c == 'a' ||
        foldCase c == 'p' || c == '-') = true →
      (redactedSecret.toList.take k).getLast? = some 'D' ∧
        (redactedSecret.toList.drop k).head? = some 'A' := by decide
  have hdrop : redactedSecret.toList.drop done.length = left := by rw [hmark, List.drop_left]
  have htake : redactedSecret.toList.take done.length = done := by rw [hmark, List.take_left]
  obtain ⟨c, left, rfl⟩ := List.exists_cons_of_ne_nil hleft
  have hlength : done.length < 17 := by
    have hlength := congrArg List.length hmark
    rw [List.length_append, List.length_cons, show redactedSecret.toList.length = 17 by decide]
      at hlength
    omega
  have hopen : openers secretPattern c = true := opener_of_begins (by decide) h
  obtain ⟨hlast, hhead⟩ := hletters done.length hlength (by
    rw [hdrop]
    simpa [or_assoc] using openers_secret hopen)
  rw [hdrop, List.head?_cons, Option.some_inj] at hhead
  rw [htake] at hlast
  subst hhead
  rcases secret_cases h with hkey | hat
  · exact absurd (dash_of_privateKey hkey) (by simp)
  · rw [atBoundary, lastOf, hlast] at hat
    simp only [Option.some_or, Option.any_some, List.cons_append, List.head?_cons] at hat
    rw [PythonWord.ascii 'D' (by decide), PythonWord.ascii 'A' (by decide)] at hat
    exact absurd hat (by decide)

theorem begins_atMostOne {cls : Char → Bool} (place : Place) : SecretAt (atMostOne cls) place :=
  begins_iff.mpr ⟨place, mem_runEnds.mpr ⟨[], rfl, rfl, rfl, Nat.zero_le _, fun _ _ => Nat.zero_le _⟩⟩

/-- Any text that does not begin with a blank is the value of a password. -/
theorem begins_passwordValue {place : Place} :
    SecretAt passwordValue place ↔ place.rest.head?.any nonSpace = true := by
  constructor
  · intro h
    refine any_mono (fun c hc => ?_) (opener_of_begins (by decide) h)
    simp only [passwordValue, openers, atMostOne, many, nullable, beq_self_eq_true, Bool.true_and,
      Bool.or_eq_true] at hc
    rcases hc with hquote | hspace | hnever
    · rw [quote, Bool.or_eq_true, beq_iff_eq, beq_iff_eq] at hquote
      rcases hquote with rfl | rfl
      · decide
      · decide
    · exact hspace
    · exact absurd hnever (by simp)
  · intro h
    obtain ⟨c, hc, hspace⟩ := (Option.any_eq_true _ _).mp h
    obtain ⟨rest, hrest⟩ := List.head?_eq_some_iff.mp hc
    refine begins_seq.mpr ⟨place, mem_runEnds.mpr ⟨[], rfl, rfl, rfl, Nat.zero_le _,
      fun _ _ => Nat.zero_le _⟩, begins_seq.mpr ⟨⟨some c, rest⟩, mem_runEnds.mpr ⟨[c], hrest, rfl,
      by simpa using hspace, le_refl _, by simp⟩, begins_atMostOne _⟩⟩

/-- A secret that the mark is part of was there with the text the mark stands for. -/
theorem secret_passes (before : Option Char) (front back rest : List Char)
    (hrest : SecretAt secretPattern ⟨lastOf before front, rest⟩)
    (h : SecretAt secretPattern ⟨before, front ++ redactedSecret.toList ++ back⟩) :
    SecretAt secretPattern ⟨before, front ++ rest⟩ := by
  have hmark : front ++ redactedSecret.toList ++ back =
      front ++ '[' :: ("REDACTED_SECRET]".toList ++ back) := by
    rw [List.append_assoc]
    rfl
  have hcut : PythonWord.isWord '[' = false := not_word (by decide) (by decide) (by decide)
  rw [hmark] at h
  obtain ⟨pattern, hmem, h⟩ := begins_oneOf.mp h
  refine begins_oneOf.mpr ⟨pattern, hmem, ?_⟩
  by_cases havoid : avoids '[' pattern = true
  · obtain ⟨last, hlast⟩ := begins_iff.mp h
    obtain ⟨done, left, -, -, hswap⟩ := ends_swap havoid hcut (boundary_of_secret hrest) hlast
    exact begins_iff.mpr ⟨_, hswap⟩
  · have hpassword : pattern = .seq passwordLead passwordValue := by
      simp only [secretPatterns, List.mem_cons, List.not_mem_nil, or_false] at hmem
      rcases hmem with rfl | rfl | rfl | rfl | rfl | rfl | rfl
      all_goals first | rfl | exact absurd (by decide) havoid
    subst hpassword
    obtain ⟨middle, hlead, hvalue⟩ := begins_seq.mp h
    obtain ⟨done, left, hfront, hmiddle, hswap⟩ :=
      ends_swap (by decide) hcut (boundary_of_secret hrest) hlead
    refine begins_seq.mpr ⟨_, hswap, begins_passwordValue.mpr ?_⟩
    cases left with
    | nil =>
      rw [List.append_nil] at hfront
      rw [hfront] at hrest
      exact nonSpace_of_secret hrest
    | cons c left =>
      rw [hmiddle] at hvalue
      have hhead := begins_passwordValue.mp hvalue
      simpa using hhead

theorem boundary_of_mem_ends {first second third : Pattern} {place last : Place}
    (h : last ∈ ends PythonWord.isWord (inOrder [first, second, third, .boundary]) place) :
    atBoundary PythonWord.isWord last = true := by
  obtain ⟨_, -, h⟩ := mem_ends_seq.mp h
  obtain ⟨_, -, h⟩ := mem_ends_seq.mp h
  obtain ⟨_, -, h⟩ := mem_ends_seq.mp h
  obtain ⟨middle, hat, h⟩ := mem_ends_seq.mp h
  obtain ⟨rfl, hat⟩ := mem_ends_boundary.mp hat
  rcases ends_cases h with ⟨-, rfl⟩ | hspan
  · exact hat
  · exact absurd hspan.opener (by simp [inOrder, openers])

/-- The last character of a value that may be quoted. -/
theorem head_quoted {cls : Char → Bool} {least : Nat} {place last : Place}
    (h : (ends PythonWord.isWord (.seq (many cls least) (atMostOne quote)) place).head? =
      some last) :
    last.before.any quote = true ∨ last.rest.head?.any cls = false := by
  obtain ⟨middle, hmany, hquote⟩ := head_seq_of_total begins_atMostOne h
  rcases ends_cases (List.mem_of_head? hquote) with ⟨-, rfl⟩ | hspan
  · exact .inr (head_runEnds hmany)
  · exact .inl hspan.closer

/-- No secret begins in a word that a match has left off in. -/
theorem word_of_secret {place last : Place} {pattern : Pattern} (hmem : pattern ∈ secretPatterns)
    (h : (ends PythonWord.isWord pattern place).head? = some last)
    (hbefore : last.before.any PythonWord.isWord = true)
    (hword : last.rest.head?.any PythonWord.isWord = true) :
    last.rest.head?.any (openers secretPattern) = false := by
  have hlast := List.mem_of_head? h
  have hcut : atBoundary PythonWord.isWord last = false := by
    rw [atBoundary, hbefore, hword]
    rfl
  have hcloser : ∀ p : Char → Bool, (∀ c, p c = true → PythonWord.isWord c = false) →
      last.before.any p = false := by
    intro p hp
    obtain ⟨c, hc, hcword⟩ := (Option.any_eq_true _ _).mp hbefore
    rw [hc, Option.any_some]
    by_contra hpc
    rw [hp c ((Bool.not_eq_false _).mp hpc)] at hcword
    exact Bool.false_ne_true hcword
  have hopener : ∀ p : Char → Bool, (∀ c, openers secretPattern c = true → p c = true) →
      last.rest.head?.any p = false → last.rest.head?.any (openers secretPattern) = false := by
    intro p hp hnone
    by_contra hsome
    rw [any_mono hp ((Bool.not_eq_false _).mp hsome)] at hnone
    exact absurd hnone.symm Bool.false_ne_true
  simp only [secretPatterns, List.mem_cons, List.not_mem_nil, or_false] at hmem
  rcases hmem with rfl | rfl | rfl | rfl | rfl | rfl | rfl
  · rw [boundary_of_mem_ends hlast] at hcut
    exact absurd hcut.symm Bool.false_ne_true
  · rw [boundary_of_mem_ends hlast] at hcut
    exact absurd hcut.symm Bool.false_ne_true
  · rw [boundary_of_mem_ends hlast] at hcut
    exact absurd hcut.symm Bool.false_ne_true
  · have hclose := (spans_of_mem_ends (by decide) hlast).closer
    rw [hcloser _ fun _ => not_word_fixedPassword] at hclose
    exact absurd hclose Bool.false_ne_true
  · have hclose := (spans_of_mem_ends (by decide) hlast).closer
    rw [hcloser _ fun _ => not_word_privateKey] at hclose
    exact absurd hclose Bool.false_ne_true
  · obtain ⟨_, -, hvalue⟩ := head_seq h
    obtain ⟨_, -, hvalue⟩ := head_seq hvalue
    rcases head_quoted hvalue with hquote | hnone
    · rw [hcloser _ fun _ => not_word_quote] at hquote
      exact absurd hquote Bool.false_ne_true
    · exact hopener _ (fun _ => nonSpace_of_opener) hnone
  · obtain ⟨_, -, hvalue⟩ := head_seq h
    rcases head_quoted hvalue with hquote | hnone
    · rw [hcloser _ fun _ => not_word_quote] at hquote
      exact absurd hquote Bool.false_ne_true
    · exact hopener _ (fun _ => tokenLetter_of_opener) hnone

/-- No secret begins behind the mark that did not begin behind what the mark stands for. -/
theorem secret_closed (place last : Place) (rest : List Char)
    (h : (ends PythonWord.isWord secretPattern place).head? = some last)
    (hhead : rest.head? = last.rest.head?)
    (hbegins : SecretAt secretPattern ⟨redactedSecret.toList.getLast?, rest⟩) :
    SecretAt secretPattern ⟨last.before, rest⟩ := by
  have hmark : redactedSecret.toList.getLast? = some ']' := by decide
  have hnot : PythonWord.isWord ']' = false := not_word (by decide) (by decide) (by decide)
  rw [hmark] at hbegins
  by_cases hbefore : last.before.any PythonWord.isWord = true
  · rcases secret_cases hbegins with hkey | hat
    · exact begins_oneOf.mpr ⟨privateKey, by simp [secretPatterns], begins_of_free (by decide) hkey⟩
    · obtain ⟨pattern, hmem, h⟩ := head_oneOf h
      have hword : last.rest.head?.any PythonWord.isWord = true := by
        rw [atBoundary, Option.any_some, hnot, hhead] at hat
        simpa using hat
      have hnone := word_of_secret hmem h hbefore hword
      have hopen := opener_of_begins (by decide) hbegins
      rw [hhead, hnone] at hopen
      exact absurd hopen Bool.false_ne_true
  · refine begins_of_same ?_ hbegins
    rw [Option.any_some, hnot]
    exact (Bool.not_eq_true _ ▸ hbefore).symm

theorem secret_sealed : Sealed PythonWord.isWord secretPattern redactedSecret.toList where
  nonempty := by decide
  consumes _ _ hlast := (spans_of_mem_ends (by decide) hlast).shorter
  fresh := secret_fresh
  passes := secret_passes
  closed := secret_closed

/-- `_SECRET_PATTERN.sub("[REDACTED_SECRET]", text)` -/
def redact (text : String) : String := sub PythonWord.isWord secretPattern redactedSecret text

/-- A redacted text holds no secret. -/
theorem search_redact (text : String) :
    search PythonWord.isWord secretPattern (redact text) = false :=
  search_sub secret_sealed text

end

end PowerFramework.Retrieval
