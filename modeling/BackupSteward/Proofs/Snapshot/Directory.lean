import BackupSteward.Proofs.Event.Totality
import BackupSteward.Proofs.Snapshot.Integrity
import BackupSteward.Proofs.Text.Trimming

/-!
# Directory listings are complete

A listing of a directory comes between lines of other kinds.  The file says what such a listing is,
and that all of it is read and nothing else: its snapshot, and its entries one by one, wherever they
are tagged.  The exception are lines that nest beyond the limit, which no reader gets over.
-/

namespace BackupSteward.Directory

/-- A line that describes the snapshot of a listing. -/
inductive HeaderOn (line : String) (snapshot : Snapshot) : Prop
  | intro {fields : Fields} (hline : objectOn line = some fields)
    (hdescribes : describes false fields = true) (hdecode : Snapshot.decode fields = .ok snapshot)

lemma exists_headerOn {line : String}
    (h : (objectOn line).any (fun fields => describes false fields &&
      (Snapshot.decode fields).toOption.isSome) = true) :
    ∃ snapshot, HeaderOn line snapshot := by
  simp only [Option.any_eq_true, Bool.and_eq_true, Option.isSome_iff_exists, toOption_eq_some] at h
  obtain ⟨fields, hline, hdescribes, snapshot, hdecode⟩ := h
  exact ⟨snapshot, .intro hline hdescribes hdecode⟩

/-- An object that is tagged as something that listings do not consist of. -/
structure IsForeign (fields : Fields) : Prop where
  tagged : tag fields ≠ ""
  notSnapshot : tag fields ≠ "snapshot"
  notEntry : tag fields ≠ "node"

/-- The lines of a listing but for that of its snapshot: those of some entries, in order, and
between them any lines without an object or with a foreign one. -/
inductive Body : (lines : List String) → (nodes : List Fields) → Prop
  | nil : Body [] []
  | entry {line : String} {fields : Fields} {lines : List String} {nodes : List Fields}
    (hline : objectOn line = some fields) (htag : tag fields = "node") (hrest : Body lines nodes) :
    Body (line :: lines) (fields :: nodes)
  | noise {line : String} {lines : List String} {nodes : List Fields}
    (hline : ∀ fields, objectOn line = some fields → IsForeign fields) (hrest : Body lines nodes) :
    Body (line :: lines) nodes

/-- The entries that some objects are decoded as, one by one. -/
abbrev DecodedAs (nodes : List Fields) (entries : List Entry) : Prop :=
  List.Forall₂ (fun fields entry => Entry.decode fields = .ok entry) nodes entries

lemma exists_decodedAs {nodes : List Fields}
    (htyped : ∀ fields ∈ nodes, (Part.entry fields).isTyped = true) :
    ∃ entries, DecodedAs nodes entries := by
  rw [exists_forall₂_iff]
  intro fields hfields
  have hdecode := Entry.settles_decode fields
  rw [show Entry.numbers.all (fields.fits Value.isWhole) = true from htyped fields hfields]
    at hdecode
  generalize Entry.decode fields = x at hdecode
  cases hdecode with
  | value entry => exact ⟨entry, rfl⟩

/-! ### Lines -/

section

variable {line : String} {fields : Fields} (p : Progress)

lemma decodeLine_of_objectOn (h : objectOn line = some fields) :
    decodeLine line = .ok (some fields) := by
  rw [objectOn, Option.join_eq_some_iff] at h
  exact toOption_eq_some.1 h

lemma not_tooDeep_of_objectOn (h : objectOn line = some fields) : ¬ TooDeep line := by
  intro hdeep
  have hfault := (decodeLine_error_iff line .tooDeep).2 ⟨rfl, hdeep⟩
  rw [decodeLine_of_objectOn h] at hfault
  cases hfault

lemma line_header {snapshot : Snapshot} (h : HeaderOn line snapshot) (hp : p.header = none) :
    p.line line = .ok { p with header := some snapshot } := by
  obtain ⟨hline, hdescribes, hdecode⟩ := h
  rw [line_of_object p (decodeLine_of_objectOn hline), hp, Option.isSome_none,
    if_pos hdescribes, hdecode]
  rfl

lemma line_entry {entry : Entry} (hline : objectOn line = some fields) (htag : tag fields = "node")
    (hdecode : Entry.decode fields = .ok entry) :
    p.line line = .ok { p with entries := entry :: p.entries } := by
  have hdescribes : ¬ describes p.header.isSome fields = true := by simp [describes, htag]
  rw [line_of_object p (decodeLine_of_objectOn hline), if_neg hdescribes, if_pos htag, hdecode]
  rfl

open scoped Classical in
/-- A line that is not of the listing is passed over, if it can be read at all. -/
lemma line_noise (h : ∀ fields, objectOn line = some fields → IsForeign fields) :
    p.line line = if TooDeep line then .error (.fault .tooDeep) else .ok p := by
  rcases hread : decodeLine line with fault | _ | fields
  · obtain ⟨rfl, hdeep⟩ := (decodeLine_error_iff line fault).1 hread
    rw [if_pos hdeep, Progress.line, hread]
    rfl
  · have hdeep : ¬ TooDeep line := by
      intro hdeep
      cases hread.symm.trans ((decodeLine_error_iff line .tooDeep).2 ⟨rfl, hdeep⟩)
    rw [if_neg hdeep, Progress.line, hread]
    rfl
  · have hobject : objectOn line = some fields := by rw [objectOn, hread]; rfl
    obtain ⟨htagged, hsnapshot, hentry⟩ := h fields hobject
    have hdescribes : ¬ describes p.header.isSome fields = true := by
      simp [describes, hsnapshot, htagged]
    rw [if_neg (not_tooDeep_of_objectOn hobject), line_of_object p hread, if_neg hdescribes,
      if_neg hentry]

open scoped Classical in
/-- The entries of a body are read one by one, unless one of its lines nests too deeply. -/
lemma foldlM_body {lines : List String} {nodes : List Fields} {entries : List Entry}
    (hbody : Body lines nodes) (hentries : DecodedAs nodes entries) (p : Progress) :
    lines.foldlM Progress.line p = if ∃ line ∈ lines, TooDeep line then .error (.fault .tooDeep)
      else .ok { p with entries := entries.reverse ++ p.entries } := by
  induction hbody generalizing entries p with
  | nil =>
    cases hentries
    rw [if_neg (by simp)]
    rfl
  | entry hline htag hrest ih =>
    obtain _ | ⟨hentry, hentries⟩ := hentries
    rw [List.foldlM_cons, line_entry p hline htag hentry, ok_bind, ih hentries]
    simp [not_tooDeep_of_objectOn hline]
  | noise hline hrest ih =>
    rw [List.foldlM_cons, line_noise p hline]
    split
    case isTrue hdeep => simp [hdeep]
    case isFalse hdeep =>
      rw [ok_bind, ih hentries]
      simp [hdeep]

end

/-! ### Listings -/

section

variable {before after : List String} {line : String} {snapshot : Snapshot}
    {early late : List Fields}

lemma Body.append (hbefore : Body before early) (hafter : Body after late) :
    Body (before ++ after) (early ++ late) := by
  induction hbefore with
  | nil => exact hafter
  | entry hline htag _ ih => exact .entry hline htag ih
  | noise hline _ ih => exact .noise hline ih

open scoped Classical in
lemma decode_body {lines : List String} {nodes : List Fields} {entries : List Entry}
    (hbody : Body lines nodes) (hentries : DecodedAs nodes entries) :
    decode lines = if ∃ l ∈ lines, TooDeep l then .error (.fault .tooDeep)
      else .error (.noListingHeader lines.length nodes.length) := by
  rw [decode, foldlM_body hbody hentries]
  split
  · rfl
  · rw [ok_bind, List.append_nil, List.length_reverse, ← hentries.length_eq]
    rfl

open scoped Classical in
lemma decode_header (hheader : HeaderOn line snapshot) (hbefore : Body before early)
    (hafter : Body after late) {first rest : List Entry} (hfirst : DecodedAs early first)
    (hrest : DecodedAs late rest) :
    decode (before ++ line :: after) = if ∃ l ∈ before ++ after, TooDeep l then
      .error (.fault .tooDeep) else .ok ⟨snapshot, first ++ rest⟩ := by
  have hdeep : (∃ l ∈ before ++ after, TooDeep l) ↔
      (∃ l ∈ before, TooDeep l) ∨ ∃ l ∈ after, TooDeep l := by
    simp only [List.mem_append, or_and_right, exists_or]
  rw [decode, List.foldlM_append, foldlM_body hbefore hfirst]
  by_cases hfront : ∃ l ∈ before, TooDeep l
  · rw [if_pos hfront, if_pos (hdeep.2 (.inl hfront))]
    rfl
  rw [if_neg hfront, ok_bind, List.foldlM_cons, line_header _ hheader rfl, ok_bind,
    foldlM_body hafter hrest]
  by_cases hback : ∃ l ∈ after, TooDeep l
  · rw [if_pos hback, if_pos (hdeep.2 (.inr hback))]
    rfl
  · rw [if_neg hback, if_neg (hdeep.not.2 (not_or.2 ⟨hfront, hback⟩)), ok_bind, List.append_nil]
    simp only [List.reverse_append, List.reverse_reverse]
    rfl

/-- **A directory is read in whole, and nothing else is.**  What is read are the snapshot of the
header and one entry for each object that is tagged as one, in order and each as it is decoded
alone, whatever other lines there are; without the header this is reported with the number of
entries.  All this is so if no line nests beyond the limit, and if one does both fail. -/
theorem directories_complete (hheader : HeaderOn line snapshot) (hbefore : Body before early)
    (hafter : Body after late)
    (htyped : ∀ fields ∈ early ++ late, (Part.entry fields).isTyped = true) :
    ∃ entries, DecodedAs (early ++ late) entries ∧
      ((∀ l ∈ before ++ after, ¬ TooDeep l) →
        decode (before ++ line :: after) = .ok ⟨snapshot, entries⟩ ∧
          decode (before ++ after) =
            .error (.noListingHeader (before ++ after).length (early ++ late).length)) ∧
      ((∃ l ∈ before ++ after, TooDeep l) →
        decode (before ++ line :: after) = .error (.fault .tooDeep) ∧
          decode (before ++ after) = .error (.fault .tooDeep)) := by
  obtain ⟨hearlyTyped, hlateTyped⟩ := List.forall_mem_append.1 htyped
  obtain ⟨first, hfirst⟩ := exists_decodedAs hearlyTyped
  obtain ⟨rest, hrest⟩ := exists_decodedAs hlateTyped
  have hentries : DecodedAs (early ++ late) (first ++ rest) := List.rel_append hfirst hrest
  rw [decode_header hheader hbefore hafter hfirst hrest,
    decode_body (hbefore.append hafter) hentries]
  refine ⟨first ++ rest, hentries, fun hshallow => ?_, fun hdeep => ?_⟩
  · have hnone : ¬ ∃ l ∈ before ++ after, TooDeep l := fun ⟨l, hl, hdeep⟩ => hshallow l hl hdeep
    exact ⟨if_neg hnone, if_neg hnone⟩
  · exact ⟨if_pos hdeep, if_pos hdeep⟩

end

/-- A header may go without a tag, and an entry may be tagged as a message. -/
theorem directories_complete_untagged :
    let noise := "\x7b\"message_type\": \"status\"\x7d"
    let header := "\x7b\"id\": \"a\", \"time\": \"2026-02-03T04:05:06Z\", \"tree\": \"t\"\x7d"
    let node := "\x7b\"name\": \"f\", \"size\": 3, \"message_type\": \"node\"\x7d"
    ∃ snapshot fields entry, HeaderOn header snapshot ∧ Body [noise] [] ∧ Body [node] [fields] ∧
      (Part.entry fields).isTyped = true ∧ (∀ l ∈ [noise, node], ¬ TooDeep l) ∧
      Entry.decode fields = .ok entry ∧
      decode [noise, header, node] = .ok ⟨snapshot, [entry]⟩ ∧
      decode [noise, node] = .error (.noListingHeader 2 1) := by
  intro noise header node
  obtain ⟨snapshot, hheader⟩ : ∃ snapshot, HeaderOn header snapshot :=
    exists_headerOn (by decide +kernel)
  have hnode : (objectOn node).any (fun fields => tag fields = "node" &&
      (Part.entry fields).isTyped) = true := by decide +kernel
  have hnoise :
      (objectOn noise).any (fun fields => tag fields = "status") = true := by decide +kernel
  simp only [Option.any_eq_true, Bool.and_eq_true, decide_eq_true_eq] at hnode hnoise
  obtain ⟨fields, hnodeOn, htag, htyped⟩ := hnode
  obtain ⟨foreign, hnoiseOn, hforeign⟩ := hnoise
  have hbefore : Body [noise] [] := by
    refine .noise (fun other hother => ?_) .nil
    cases hnoiseOn.symm.trans hother
    constructor <;> rw [hforeign] <;> decide
  have hafter : Body [node] [fields] := .entry hnodeOn htag .nil
  have hshallow : ∀ l ∈ [noise, node], ¬ TooDeep l := List.forall_mem_cons.2
    ⟨not_tooDeep_of_objectOn hnoiseOn,
      List.forall_mem_singleton.2 (not_tooDeep_of_objectOn hnodeOn)⟩
  obtain ⟨entries, hentries, hreads, -⟩ := directories_complete hheader hbefore hafter
    (List.forall_mem_singleton.2 htyped)
  obtain ⟨entry, hentry, rfl⟩ : ∃ entry, Entry.decode fields = .ok entry ∧ entries = [entry] := by
    obtain _ | ⟨hentry, _ | _⟩ := hentries
    exact ⟨_, hentry, rfl⟩
  exact ⟨snapshot, fields, entry, hheader, hbefore, hafter, htyped, hshallow, hentry,
    hreads hshallow⟩

/-! ### Lines that nest too deeply -/

lemma skipSpace_brackets (n : Nat) :
    Json.skipSpace (List.replicate n '[') = List.replicate n '[' := by
  cases n <;> rfl

/-- Brackets alone nest as deeply as there are any. -/
lemma nests_brackets {size n depth : Nat} (h : depth < n) :
    Json.Nests size depth (List.replicate n '[') := by
  induction depth generalizing n with
  | zero =>
    obtain ⟨n, rfl⟩ := Nat.exists_eq_add_of_lt h
    exact .inl (by simp [List.replicate_succ])
  | succ depth ih =>
    obtain ⟨n, rfl⟩ := Nat.exists_eq_succ_of_ne_zero (Nat.ne_zero_of_lt h)
    refine .inl ⟨List.replicate n '[', rfl, .here ?_⟩
    rw [skipSpace_brackets]
    exact ih (by omega)

/-- A line that breaks off in brackets. -/
def brokenOff (n : Nat) : List Char := ['{', '"', 'a', '"', ':'] ++ List.replicate n '['

lemma trim_brokenOff {n : Nat} (h : n ≠ 0) : Text.trim (brokenOff n) = brokenOff n := by
  have hlast : ∀ c ∈ (brokenOff n).getLast?, Text.isBlank c = false := by
    rw [brokenOff, List.getLast?_append, List.getLast?_replicate, if_neg h]
    rintro c ⟨⟩
    rfl
  have htrim : Text.trim ([] ++ brokenOff n ++ []) = brokenOff n :=
    Text.trim_surrounded rfl rfl (by rintro c ⟨⟩; rfl) hlast
  rwa [List.append_nil] at htrim

lemma tooDeep_brokenOff {n : Nat} (h : Json.maxDepth ≤ n) :
    TooDeep (String.ofList (brokenOff n)) := by
  have hmax : Json.maxDepth = 979 + 1 := rfl
  -- the brackets are what the field in front of them holds
  have hnests : Json.Nests (brokenOff n).length 979 (Json.skipSpace (List.replicate n '[')) := by
    rw [skipSpace_brackets]
    exact nests_brackets (by omega)
  rw [TooDeep, String.toList_ofList, trim_brokenOff (by omega)]
  exact ⟨rfl, .inr ⟨_, rfl, .here (.intro rfl rfl rfl) hnests⟩⟩

/-- Among the lines that hold no object is one that breaks off in brackets, and it is not passed
over. -/
theorem directory_brokenOff : ¬ ∀ (before after : List String) (line : String) (snapshot : Snapshot)
    (early late : List Fields), HeaderOn line snapshot → Body before early → Body after late →
      (∀ fields ∈ early ++ late, (Part.entry fields).isTyped = true) →
        ∃ entries, decode (before ++ line :: after) = .ok ⟨snapshot, entries⟩ := by
  intro h
  let header :=
    "\x7b\"id\":\"a\",\"time\":\"2024-01-02T09:00:00Z\",\"struct_type\":\"snapshot\"\x7d"
  let line := String.ofList (brokenOff 20000)
  obtain ⟨snapshot, hheader⟩ : ∃ snapshot, HeaderOn header snapshot :=
    exists_headerOn (by decide +kernel)
  have hdeep : TooDeep line := tooDeep_brokenOff (by decide)
  have hnoise : ∀ fields, objectOn line = some fields → IsForeign fields := fun _ hfields =>
    absurd hdeep (not_tooDeep_of_objectOn hfields)
  have hbody : Body [line] [] := .noise hnoise .nil
  obtain ⟨entries, hreads⟩ := h [] [line] header snapshot [] [] hheader .nil hbody (by simp)
  rw [decode_header hheader .nil hbody .nil .nil, if_pos ⟨line, by simp, hdeep⟩] at hreads
  cases hreads

end BackupSteward.Directory
