import Epistle.Arc.Validate

/-!
# Our own signatures are good

What a sealer writes is read back and checked by other hosts. The tags are read as they were written
(`Tags.parse_write`), and without the signature they are what was signed (`stripB_write`). The texts
that are checked are the same as those that were signed if nothing was put between: `Ams.verify`
comes to the same fields and the same body under our own fields, `AsSeal.verify` to the same
instances.

So our instance passes if our key is published (`check_sign`). Of signatures only this is taken for
granted: one that was made with our key is good for the text that was signed.
-/

namespace Epistle.Arc

open TextFormat
open Smtp (Primitives)
open List (map_cons map_map map_nil mem_cons mem_cons_of_mem mem_cons_self mem_map not_mem_nil)

/-! ## Tags -/

variable {t name : Text} {headers : List (Text × Text)} {used : List Bool}

theorem Plain.trim_eq (h : Plain t) : trim t = t := trim_of_forall fun c hc ↦ (h c hc).1

theorem Plain.semicolon_not_mem (h : Plain t) : ';' ∉ t := fun hmem ↦ (h _ hmem).2 rfl

theorem Plain.filter_eq (h : Plain t) : t.filter (!isWhitespace ·) = t :=
  List.filter_eq_self.2 fun c hc ↦ by simp [(h c hc).1]

theorem Plain.cr_not_mem (h : Plain t) : '\r' ∉ t := fun hmem ↦
  absurd (h _ hmem).1 (by decide)

theorem Plain.append {u : Text} (ht : Plain t) (hu : Plain u) : Plain (t ++ u) := by
  intro c hc
  rcases List.mem_append.1 hc with hc | hc
  · exact ht c hc
  · exact hu c hc

theorem Plain.cons {c : Char} (hc : isWhitespace c = false ∧ c ≠ ';') (ht : Plain t) :
    Plain (c :: t) := by
  intro d hd
  rcases mem_cons.1 hd with rfl | hd
  · exact hc
  · exact ht d hd

theorem plain_decimal (n : ℕ) : Plain (decimal n) := by
  intro c hc
  have hdigit := isDigit_of_mem_decimal hc
  refine ⟨isWhitespace_of_isDigit hdigit, ?_⟩
  rintro rfl
  exact absurd hdigit (by decide)

theorem trim_space (t : Text) : trim (' ' :: t) = trim t := by
  rfl

def tagText (tag : Text × Text) : Text := tag.1 ++ '=' :: tag.2

namespace Tags

/-- The tags with a space before each but the first. -/
def pieces : Tags → List Text
  | [] => []
  | first :: rest => tagText first :: rest.map (' ' :: tagText ·)

def write (tags : Tags) : Text := [';'].intercalate tags.pieces

def IsName (name : Text) : Prop :=
  name ≠ [] ∧ Plain name ∧ '=' ∉ name ∧ toAsciiLowercase name = name

instance (name : Text) : Decidable (IsName name) := inferInstanceAs (Decidable (_ ∧ _))

structure Fit (tag : Text × Text) : Prop where
  isName : IsName tag.1
  value_plain : Plain tag.2

namespace Fit

variable {tag : Text × Text}

theorem ne_nil (h : Fit tag) : tag.1 ≠ [] := h.isName.1

theorem eq_not_mem (h : Fit tag) : '=' ∉ tag.1 := h.isName.2.2.1

theorem plain (h : Fit tag) : Plain (tagText tag) :=
  h.isName.2.1.append (.cons (by decide) h.value_plain)

end Fit

variable {tags : Tags}

theorem fit_of_forall (hnames : ∀ name ∈ tags.map Prod.fst, IsName name)
    (hvalues : ∀ value ∈ tags.map Prod.snd, Plain value) : ∀ tag ∈ tags, Fit tag := fun _ htag ↦
  ⟨hnames _ (List.mem_map_of_mem htag), hvalues _ (List.mem_map_of_mem htag)⟩

theorem pieces_ne_nil (h : tags ≠ []) : tags.pieces ≠ [] := by
  cases tags with
  | nil => exact absurd rfl h
  | cons first rest => exact List.cons_ne_nil _ _

theorem eq_of_mem_pieces {piece : Text} (h : piece ∈ tags.pieces) :
    ∃ tag ∈ tags, piece = tagText tag ∨ piece = ' ' :: tagText tag := by
  cases tags with
  | nil => cases h
  | cons first rest =>
    rcases mem_cons.1 h with rfl | h
    · exact ⟨first, mem_cons_self, .inl rfl⟩
    · obtain ⟨tag, htag, rfl⟩ := mem_map.1 h
      exact ⟨tag, mem_cons_of_mem _ htag, .inr rfl⟩

theorem map_pieces {β : Type} {f : Text → β} {g : Text × Text → β}
    (h : ∀ tag ∈ tags, f (tagText tag) = g tag ∧ f (' ' :: tagText tag) = g tag) :
    tags.pieces.map f = tags.map g := by
  cases tags with
  | nil => rfl
  | cons first rest =>
    rw [pieces, map_cons, map_cons, (h first mem_cons_self).1, map_map]
    congr 1
    exact List.map_congr_left fun tag htag ↦ (h tag (mem_cons_of_mem _ htag)).2

section

variable (hne : tags ≠ []) (h : ∀ tag ∈ tags, Fit tag)
include hne h

theorem splitOn_write : tags.write.splitOn ';' = tags.pieces := by
  refine List.splitOn_intercalate ';' (fun piece hpiece ↦ ?_) (pieces_ne_nil hne)
  obtain ⟨tag, htag, rfl | rfl⟩ := eq_of_mem_pieces hpiece
  · exact (h tag htag).plain.semicolon_not_mem
  · simpa using (h tag htag).plain.semicolon_not_mem

/-- **Tags are read as they were written.** -/
theorem parse_write : parse tags.write = some tags := by
  have htrim : tags.pieces.map trim = tags.map tagText := by
    refine map_pieces fun tag htag ↦ ⟨(h tag htag).plain.trim_eq, ?_⟩
    rw [trim_space, (h tag htag).plain.trim_eq]
  have hfilter : (tags.map tagText).filter (· ≠ []) = tags.map tagText := by
    refine List.filter_eq_self.2 fun piece hpiece ↦ ?_
    obtain ⟨tag, -, rfl⟩ := mem_map.1 hpiece
    simp [tagText]
  rw [parse, splitOn_write hne h, htrim, hfilter]
  clear hne htrim hfilter
  induction tags with
  | nil => rfl
  | cons tag tags ih =>
    have htag := h tag mem_cons_self
    rw [map_cons, List.mapM_cons, ih fun x hx ↦ h x (mem_cons_of_mem _ hx), tagText,
      splitOnce_append htag.eq_not_mem]
    dsimp only [Option.map_some, Option.bind_eq_bind, Option.bind_some, Option.pure_def]
    rw [htag.isName.2.1.trim_eq, htag.isName.2.2.2, htag.value_plain.filter_eq]

end

def unsigned (tags : Tags) : Tags :=
  tags.map fun tag ↦ if tag.1 = "b".toList then ("b".toList, []) else tag

theorem isPrefixOf_tagText {tag : Text × Text} (h : Fit tag) :
    "b=".toList.isPrefixOf (tagText tag) = true ↔ tag.1 = "b".toList := by
  obtain ⟨name, value⟩ := tag
  rw [List.isPrefixOf_iff_prefix]
  constructor
  · intro hprefix
    obtain ⟨c, name, rfl⟩ := List.exists_cons_of_ne_nil h.ne_nil
    obtain ⟨hc, hrest⟩ := List.cons_prefix_cons.1 hprefix
    cases name with
    | nil => exact congrArg (· :: []) hc.symm
    | cons d name =>
      -- the name has no equals sign
      obtain rfl := (List.cons_prefix_cons.1 hrest).1
      exact absurd (mem_cons_of_mem c mem_cons_self) h.eq_not_mem
  · rintro rfl
    exact List.prefix_append "b=".toList value

theorem trimStart_tagText {tag : Text × Text} (h : Fit tag) :
    trimStart (tagText tag) = tagText tag :=
  trimStart_of_forall fun c hc ↦ (h.plain c hc).1

/-- **Without the signature a value is what was signed.** -/
theorem stripB_write (hne : tags ≠ []) (h : ∀ tag ∈ tags, Fit tag) :
    stripB tags.write = (unsigned tags).write := by
  rw [stripB, splitOn_write hne h, write]
  congr 1
  have hstrip : ∀ tag ∈ tags, ∀ space : Text, (∀ c ∈ space, isWhitespace c = true) →
      (if "b=".toList.isPrefixOf (trimStart (space ++ tagText tag)) then
        (space ++ tagText tag).takeWhile isWhitespace ++ "b=".toList else space ++ tagText tag) =
      space ++ tagText (if tag.1 = "b".toList then ("b".toList, []) else tag) := by
    intro tag htag space hspace
    have hfit := h tag htag
    have hstart : trimStart (space ++ tagText tag) = tagText tag := by
      rw [trimStart, List.dropWhile_append_of_pos hspace, ← trimStart, trimStart_tagText hfit]
    have htake : (space ++ tagText tag).takeWhile isWhitespace = space := by
      rw [List.takeWhile_append_of_pos hspace, List.append_right_eq_self, List.takeWhile_eq_nil_iff]
      intro hlt
      simp [(hfit.plain _ (List.getElem_mem hlt)).1]
    rw [hstart, htake]
    by_cases hname : tag.1 = "b".toList
    · rw [if_pos ((isPrefixOf_tagText hfit).2 hname), if_pos hname]
      rfl
    · rw [if_neg (mt (isPrefixOf_tagText hfit).1 hname), if_neg hname]
  cases tags with
  | nil => rfl
  | cons first rest =>
    rw [pieces, map_cons, unsigned, map_cons, pieces, map_map, map_map]
    congr 1
    · exact hstrip first mem_cons_self [] (by simp)
    · exact List.map_congr_left fun tag htag ↦
        hstrip tag (mem_cons_of_mem _ htag) [' '] fun c hc ↦ by
          rw [List.mem_singleton.1 hc]
          decide

end Tags

/-! ## Normal forms -/

theorem collapse_start {α : Type} {blank : α → Bool} {space : α} (t : List α) :
    collapse blank space false true t = collapse blank space false false t := by
  cases t with
  | nil => rfl
  | cons c t => simp [collapse]

theorem header_space (name value : Text) :
    Canon.relaxed.header name (' ' :: value) = Canon.relaxed.header name value := by
  simp only [Canon.header]
  rw [collapse, if_pos (by decide), collapse_start]

theorem ownLine_space (kind : ArcKind) (value : Text) :
    ownLine .relaxed kind (' ' :: value) = ownLine .relaxed kind value := by
  rw [ownLine, ownLine, header_space]

/-! ## The fields that are signed -/

theorem mem_selectHeaders {names : List Text}
    (h : name ∈ (selectHeaders headers used names).map Prod.fst) : name ∈ names := by
  induction names generalizing used with
  | nil => cases h
  | cons first names ih =>
    rw [selectHeaders] at h
    split at h
    · exact mem_cons_of_mem _ (ih h)
    · rcases mem_cons.1 h with rfl | h
      · exact mem_cons_self
      · exact mem_cons_of_mem _ (ih h)

theorem selectHeaders_of_none (h : lowestUnused headers used name = none) (names : List Text) :
    selectHeaders headers used (name :: names) = selectHeaders headers used names := by
  rw [selectHeaders, h]

theorem selectHeaders_of_some {i : ℕ}
    (h : lowestUnused headers used name = some i) (names : List Text) :
    selectHeaders headers used (name :: names) =
      (name, headers[i]?.getD ([], [])) :: selectHeaders headers (used.set i true) names := by
  rw [selectHeaders, h]

theorem selectHeaders_names (headers : List (Text × Text)) (used : List Bool) (names : List Text) :
    selectHeaders headers used ((selectHeaders headers used names).map Prod.fst) =
      selectHeaders headers used names := by
  induction names generalizing used with
  | nil => rfl
  | cons name names ih =>
    cases hfound : lowestUnused headers used name with
    | none =>
      rw [selectHeaders_of_none hfound]
      exact ih used
    | some i => rw [selectHeaders_of_some hfound, map_cons, selectHeaders_of_some hfound, ih]

variable {before : List (Text × Text)}

/-- Fields of other names that are put before. -/
theorem lowestUnused_append
    (h : ∀ header ∈ before, eqIgnoreAsciiCase header.1 name = false) (headers : List (Text × Text))
    (used : List Bool) :
    lowestUnused (before ++ headers) (List.replicate before.length false ++ used) name =
      (lowestUnused headers used name).map (before.length + ·) := by
  have hnone : (List.range before.length).reverse.find? (fun i ↦
      !((List.replicate before.length false ++ used)[i]?.getD false) &&
        ((before ++ headers)[i]?.any fun header ↦ eqIgnoreAsciiCase header.1 name)) = none := by
    rw [List.find?_eq_none]
    intro i hi
    have hlt : i < before.length := by simpa using hi
    rw [List.getElem?_append_left hlt, List.getElem?_eq_getElem hlt, Option.any_some,
      h _ (List.getElem_mem hlt), Bool.and_false]
    exact Bool.false_ne_true
  rw [lowestUnused, lowestUnused, List.length_append, List.range_add, List.reverse_append,
    List.find?_append, hnone, Option.or_none, ← List.map_reverse, List.find?_map]
  congr 2
  funext i
  simp [List.getElem?_append_right]

theorem selectHeaders_append {names : List Text}
    (h : ∀ header ∈ before, ∀ name ∈ names, eqIgnoreAsciiCase header.1 name = false)
    (used : List Bool) :
    selectHeaders (before ++ headers) (List.replicate before.length false ++ used) names =
      selectHeaders headers used names := by
  induction names generalizing used with
  | nil => rfl
  | cons name names ih =>
    have hrest := ih fun header hheader x hx ↦ h header hheader x (mem_cons_of_mem _ hx)
    have hfound := lowestUnused_append
      (fun header hheader ↦ h header hheader name mem_cons_self) headers used
    cases hbelow : lowestUnused headers used name with
    | none =>
      rw [hbelow] at hfound
      rw [selectHeaders_of_none hbelow, selectHeaders_of_none hfound, hrest]
    | some i =>
      rw [hbelow] at hfound
      rw [selectHeaders_of_some hbelow, selectHeaders_of_some hfound,
        List.set_append_right _ _ (by simp), List.length_replicate, Nat.add_sub_cancel_left, hrest,
        List.getElem?_append_right (by simp), Nat.add_sub_cancel_left]

/-! ## Signatures -/

/-- What is taken for granted of encodings and signatures. -/
structure SealerLaws (p : Primitives) (keys : Keys) (sealer : ArcSealer) : Prop where
  decode_encode : ∀ bytes, p.base64Decode (p.base64Encode bytes) = some bytes
  encode_plain : ∀ bytes, Plain (p.base64Encode bytes)
  /-- A signature of ours is good. -/
  verify_sign : ∀ text, keys.verify sealer.publicKey text (sealer.sign text) = true

def Published (p : Primitives) (keys : Keys) (sealer : ArcSealer) : Prop :=
  ∃ texts, keys.txt (toAsciiLowercase sealer.selector ++ "._domainkey.".toList ++
      toAsciiLowercase sealer.domain) = some texts ∧
    texts.findSome? (parseKey p) = some sealer.publicKey

section Signatures

variable {p : Primitives} {keys : Keys} {sealer : ArcSealer}

/-- **A signature of ours is good if the key is published.** -/
theorem check_sign (laws : SealerLaws p keys sealer) (hpublished : Published p keys sealer)
    (signed : Text) :
    keys.check p (toAsciiLowercase sealer.selector) (toAsciiLowercase sealer.domain) signed
      (sealer.sign (encodeUtf8 signed)) = .pass := by
  obtain ⟨texts, htexts, hkey⟩ := hpublished
  rw [Keys.check, htexts]
  dsimp only
  rw [hkey]
  exact if_pos (laws.verify_sign _)

/-! ## Message signatures -/

def amsTags (number domain selector names bodyHash signature : Text) : Tags :=
  [("i".toList, number), ("a".toList, "ed25519-sha256".toList),
    ("c".toList, "relaxed/relaxed".toList), ("d".toList, domain), ("s".toList, selector),
    ("h".toList, names), ("bh".toList, bodyHash), ("b".toList, signature)]

section

variable (number domain selector names bodyHash signature : Text)

theorem write_amsTags :
    " i=".toList ++ number ++ "; a=ed25519-sha256; c=relaxed/relaxed; d=".toList ++ domain ++
        "; s=".toList ++ selector ++ "; h=".toList ++ names ++ "; bh=".toList ++ bodyHash ++
        "; b=".toList ++ signature =
      ' ' :: (amsTags number domain selector names bodyHash signature).write := by
  simp [amsTags, Tags.write, Tags.pieces, tagText, List.intercalate_cons_cons]

theorem unsigned_amsTags :
    Tags.unsigned (amsTags number domain selector names bodyHash signature) =
      amsTags number domain selector names bodyHash [] := by
  simp [amsTags, Tags.unsigned]

end

theorem fit_amsTags {number domain selector names bodyHash signature : Text}
    (hnumber : Plain number) (hdomain : Plain domain) (hselector : Plain selector)
    (hnames : Plain names) (hbody : Plain bodyHash) (hsignature : Plain signature) :
    ∀ tag ∈ amsTags number domain selector names bodyHash signature, Tags.Fit tag := by
  have hfixed : Plain "ed25519-sha256".toList ∧ Plain "relaxed/relaxed".toList := by decide
  refine Tags.fit_of_forall ?_ ?_
  · exact (by decide : ∀ name ∈ ["i", "a", "c", "d", "s", "h", "bh", "b"].map String.toList,
      Tags.IsName name)
  · intro value hvalue
    simp only [amsTags, map_cons, map_nil, mem_cons, not_mem_nil, or_false]
      at hvalue
    rcases hvalue with rfl | rfl | rfl | rfl | rfl | rfl | rfl | rfl
    exacts [hnumber, hfixed.1, hfixed.2, hdomain, hselector, hnames, hbody, hsignature]

theorem parseInstance_decimal {n : ℕ} (hpos : n ≠ 0) (hle : n ≤ maxInstance) :
    parseInstance (decimal n) = some n := by
  have hlt : n < 2 ^ 32 := hle.trans_lt (by decide)
  rw [parseInstance, parseU32, parseDecimal_decimal, Option.filter_some,
    if_pos (by simpa using hlt), Option.filter_some, if_pos (by simp [hpos, hle])]

variable {names : List Text} {number : ℕ}

theorem split_names (hne : names ≠ []) (h : names ⊆ signedHeaders) :
    (([':'].intercalate names).splitOn ':').map toAsciiLowercase = names := by
  rw [List.splitOn_intercalate ':' (fun name hname ↦ ?_) hne]
  · refine (List.map_congr_left fun name hname ↦ ?_).trans (List.map_id names)
    exact (by decide : ∀ name ∈ signedHeaders, toAsciiLowercase name = name) name (h hname)
  · exact (by decide : ∀ name ∈ signedHeaders, ':' ∉ name) name (h hname)

theorem plain_names (h : names ⊆ signedHeaders) : Plain ([':'].intercalate names) := by
  induction names with
  | nil => exact fun c hc ↦ absurd hc not_mem_nil
  | cons name names ih =>
    have hname : Plain name :=
      (by decide : ∀ name ∈ signedHeaders, Plain name) name (h mem_cons_self)
    cases names with
    | nil => simpa [List.intercalate] using hname
    | cons next names =>
      rw [List.intercalate_cons_cons]
      exact (hname.append (by decide)).append (ih fun x hx ↦ h (mem_cons_of_mem _ hx))

theorem parseMessageSignature_write (laws : SealerLaws p keys sealer) (hpos : number ≠ 0)
    (hle : number ≤ maxInstance) (hnames : names ⊆ signedHeaders)
    (hfrom : "from".toList ∈ names) (bodyHash signature : Bytes) :
    parseMessageSignature p (amsTags (decimal number) sealer.domain sealer.selector
        ([':'].intercalate names) (p.base64Encode bodyHash) (p.base64Encode signature)).write =
      some ⟨number, .ed25519Sha256, toAsciiLowercase sealer.domain,
        toAsciiLowercase sealer.selector, names, bodyHash, signature, .relaxed, .relaxed,
        none⟩ := by
  have hfit := fit_amsTags (plain_decimal number) sealer.domain_plain sealer.selector_plain
    (plain_names hnames) (laws.encode_plain bodyHash) (laws.encode_plain signature)
  have hsplit := split_names (List.ne_nil_of_mem hfrom) hnames
  have harc : names.any ("arc-".toList.isPrefixOf ·) = false := by
    rw [List.any_eq_false]
    intro name hname
    exact (by decide : ∀ name ∈ signedHeaders, ¬"arc-".toList.isPrefixOf name = true) name
      (hnames hname)
  have hany : names.any (· = "from".toList) = true := List.any_eq_true.2 ⟨_, hfrom, by simp⟩
  have hparse := Tags.parse_write (by simp [amsTags]) hfit
  generalize htags : amsTags (decimal number) sealer.domain sealer.selector
    ([':'].intercalate names) (p.base64Encode bodyHash)
    (p.base64Encode signature) = tags at hparse ⊢
  have hnumber : tags.get "i" = some (decimal number) := by rw [← htags]; rfl
  have halgorithm : tags.get "a" = some "ed25519-sha256".toList := by rw [← htags]; rfl
  have hcanon : tags.get "c" = some "relaxed/relaxed".toList := by rw [← htags]; rfl
  have hdomain : tags.get "d" = some sealer.domain := by rw [← htags]; rfl
  have hselector : tags.get "s" = some sealer.selector := by rw [← htags]; rfl
  have hheaders : tags.get "h" = some ([':'].intercalate names) := by rw [← htags]; rfl
  have hbody : tags.get "bh" = some (p.base64Encode bodyHash) := by rw [← htags]; rfl
  have hsignature : tags.get "b" = some (p.base64Encode signature) := by rw [← htags]; rfl
  have htime : parseTimestamp tags = some none := by rw [← htags]; rfl
  have hcanons : parseCanons (some "relaxed/relaxed".toList) = some (.relaxed, .relaxed) := by
    decide
  have hparsed : parseAlgorithm "ed25519-sha256".toList = some .ed25519Sha256 := by decide
  simp only [parseMessageSignature, hparse, hnumber, halgorithm, hcanon, hdomain,
    hselector, hheaders, hbody, hsignature, htime, hcanons, hparsed, hsplit, harc, hany,
    laws.decode_encode,
    parseInstance_decimal hpos hle, Option.bind_eq_bind, Option.bind_some, Option.pure_def,
    guard_true, Bool.not_false]

/-- What a sealer signs of a message. -/
def amsInput (p : Primitives) (sealer : ArcSealer) (number : ℕ) (raw : Bytes)
    (selected : List (Text × (Text × Text))) : Text :=
  hashInput .relaxed selected ++ ownLine .relaxed .messageSignature
    (' ' :: (amsTags (decimal number) sealer.domain sealer.selector
      ([':'].intercalate (selected.map Prod.fst))
      (p.base64Encode (p.sha256 (Canon.relaxed.body (messageBody raw)))) []).write)

variable {raw : Bytes}

theorem build_eq_some {value : Text} (h : Ams.build p sealer number raw = some value) :
    ∃ headers selected, splitMessage raw = some (headers, messageBody raw) ∧
      selectHeaders headers (List.replicate headers.length false) signedHeaders = selected ∧
      "from".toList ∈ selected.map Prod.fst ∧
      value = ' ' :: (amsTags (decimal number) sealer.domain sealer.selector
        ([':'].intercalate (selected.map Prod.fst))
        (p.base64Encode (p.sha256 (Canon.relaxed.body (messageBody raw))))
        (p.base64Encode
          (sealer.sign (encodeUtf8 (amsInput p sealer number raw selected))))).write := by
  simp only [Ams.build, Option.bind_eq_bind, Option.bind_eq_some_iff, Option.pure_def,
    Option.some.injEq, Option.guard_eq_some'] at h
  obtain ⟨⟨headers, body⟩, hsplit, -, hfrom, rfl⟩ := h
  obtain rfl : messageBody raw = body := by
    obtain ⟨lines, -, hlines⟩ := Option.map_eq_some_iff.1 hsplit
    exact (Prod.mk.inj hlines).2
  refine ⟨headers, _, hsplit, rfl, ?_, ?_⟩
  · obtain ⟨found, hfound, hname⟩ := List.any_eq_true.1 hfrom
    exact mem_map.2 ⟨found, hfound, by simpa using hname⟩
  · have hunsigned := write_amsTags (decimal number) sealer.domain sealer.selector
      ([':'].intercalate ((selectHeaders headers (List.replicate headers.length false)
        signedHeaders).map Prod.fst))
      (p.base64Encode (p.sha256 (Canon.relaxed.body (messageBody raw)))) []
    rw [List.append_nil] at hunsigned
    rw [← write_amsTags, amsInput, ← hunsigned]

theorem trimStart_write {tags : Tags} (hne : tags ≠ []) (h : ∀ tag ∈ tags, Tags.Fit tag) :
    trimStart (' ' :: tags.write) = tags.write := by
  obtain ⟨first, rest, rfl⟩ := List.exists_cons_of_ne_nil hne
  have hfirst := h first mem_cons_self
  obtain ⟨c, name, hname⟩ := List.exists_cons_of_ne_nil hfirst.ne_nil
  obtain ⟨more, hmore⟩ : ∃ more, Tags.write (first :: rest) = c :: more := by
    rw [Tags.write, Tags.pieces, tagText, hname]
    cases rest.map (' ' :: tagText ·) with
    | nil | cons next more => exact ⟨_, by rfl⟩
  have hc : isWhitespace c = false := (hfirst.isName.2.1 c (hname ▸ mem_cons_self)).1
  rw [hmore, trimStart, List.dropWhile_cons_of_pos (by decide),
    List.dropWhile_cons_of_neg (by simp [hc])]

/-- **A message signature of ours is good** for a copy with the same body in which the same fields
are found. -/
theorem amsPasses_write (laws : SealerLaws p keys sealer) (hpublished : Published p keys sealer)
    (hpos : number ≠ 0) (hle : number ≤ maxInstance) {selected : List (Text × (Text × Text))}
    (hnames : selected.map Prod.fst ⊆ signedHeaders) (hfrom : "from".toList ∈ selected.map Prod.fst)
    {x : Instance}
    (hx : x.messageSignature = (amsTags (decimal number) sealer.domain sealer.selector
      ([':'].intercalate (selected.map Prod.fst))
      (p.base64Encode (p.sha256 (Canon.relaxed.body (messageBody raw))))
      (p.base64Encode (sealer.sign (encodeUtf8 (amsInput p sealer number raw selected))))).write)
    {copy : Bytes} {headers : List (Text × Text)}
    (hcopy : splitMessage copy = some (headers, messageBody raw))
    (hsame : selectHeaders headers (List.replicate headers.length false) (selected.map Prod.fst) =
      selected) : amsPasses p keys x copy = true := by
  have hfit := fit_amsTags (plain_decimal number) sealer.domain_plain sealer.selector_plain
    (plain_names hnames) (laws.encode_plain (p.sha256 (Canon.relaxed.body (messageBody raw))))
    (laws.encode_plain (sealer.sign (encodeUtf8 (amsInput p sealer number raw selected))))
  rw [amsPasses, hx, parseMessageSignature_write laws hpos hle hnames hfrom, Option.any_some,
    decide_eq_true_eq, Ams.verify, hcopy]
  dsimp only
  rw [if_neg (not_not.2 rfl), Tags.stripB_write (by simp [amsTags]) hfit, unsigned_amsTags, hsame,
    ← ownLine_space]
  exact check_sign laws hpublished _

/-! ## Seals -/

def sealTags (number domain selector cv signature : Text) : Tags :=
  [("i".toList, number), ("a".toList, "ed25519-sha256".toList), ("d".toList, domain),
    ("s".toList, selector), ("cv".toList, cv), ("b".toList, signature)]

theorem write_sealTags (number domain selector cv signature : Text) :
    " i=".toList ++ number ++ "; a=ed25519-sha256; d=".toList ++ domain ++ "; s=".toList ++
      selector ++
        "; cv=".toList ++ cv ++ "; b=".toList ++ signature =
      ' ' :: (sealTags number domain selector cv signature).write := by
  simp [sealTags, Tags.write, Tags.pieces, tagText, List.intercalate_cons_cons]

theorem unsigned_sealTags (number domain selector cv signature : Text) :
    Tags.unsigned (sealTags number domain selector cv signature) =
      sealTags number domain selector cv [] := by
  simp [sealTags, Tags.unsigned]

theorem fit_sealTags {number domain selector signature : Text} (hnumber : Plain number)
    (hdomain : Plain domain) (hselector : Plain selector) (cv : ChainValidation)
    (hsignature : Plain signature) :
    ∀ tag ∈ sealTags number domain selector cv.asStr signature, Tags.Fit tag := by
  have halgorithm : Plain "ed25519-sha256".toList := by decide
  have hcv : Plain cv.asStr := by cases cv <;> decide
  refine Tags.fit_of_forall ?_ ?_
  · exact (by decide : ∀ name ∈ ["i", "a", "d", "s", "cv", "b"].map String.toList,
      Tags.IsName name)
  · intro value hvalue
    simp only [sealTags, map_cons, map_nil, mem_cons, not_mem_nil, or_false]
      at hvalue
    rcases hvalue with rfl | rfl | rfl | rfl | rfl | rfl
    exacts [hnumber, halgorithm, hdomain, hselector, hcv, hsignature]

/-- **A seal is read as it was written.** -/
theorem parseSeal_write (laws : SealerLaws p keys sealer) (hpos : number ≠ 0)
    (hle : number ≤ maxInstance) (cv : ChainValidation) (signature : Bytes) :
    parseSeal p (sealTags (decimal number) sealer.domain sealer.selector cv.asStr
        (p.base64Encode signature)).write =
      some ⟨number, .ed25519Sha256, toAsciiLowercase sealer.domain,
        toAsciiLowercase sealer.selector, cv, signature, none⟩ := by
  have hfit := fit_sealTags (plain_decimal number) sealer.domain_plain sealer.selector_plain cv
    (laws.encode_plain signature)
  have hparse := Tags.parse_write (by simp [sealTags]) hfit
  generalize htags : sealTags (decimal number) sealer.domain sealer.selector cv.asStr
    (p.base64Encode signature) = tags at hparse ⊢
  have hnumber : tags.get "i" = some (decimal number) := by rw [← htags]; rfl
  have halgorithm : tags.get "a" = some "ed25519-sha256".toList := by rw [← htags]; rfl
  have hdomain : tags.get "d" = some sealer.domain := by rw [← htags]; rfl
  have hselector : tags.get "s" = some sealer.selector := by rw [← htags]; rfl
  have hcv : tags.get "cv" = some cv.asStr := by rw [← htags]; rfl
  have hsignature : tags.get "b" = some (p.base64Encode signature) := by rw [← htags]; rfl
  have hmessage : (tags.get "h").isNone ∧ (tags.get "bh").isNone := by
    rw [← htags]; exact ⟨rfl, rfl⟩
  have htime : parseTimestamp tags = some none := by rw [← htags]; rfl
  have hparsed : parseAlgorithm "ed25519-sha256".toList = some .ed25519Sha256 := by decide
  have hstatus : ChainValidation.parse cv.asStr = some cv := by cases cv <;> decide
  simp only [parseSeal, hparse, hnumber, halgorithm, hdomain, hselector, hcv, hsignature, hmessage,
    htime, hparsed, hstatus, laws.decode_encode, parseInstance_decimal hpos hle,
    Option.bind_eq_bind, Option.bind_some, Option.pure_def, and_self, guard_true]

def sealInput (sealer : ArcSealer) (number : ℕ) (cv : ChainValidation) (prior : List Instance)
    (authResults messageSignature : Text) : Text :=
  (AsSeal.sorted prior).flatMap AsSeal.earlier ++
    AsSeal.appendInstance authResults messageSignature ++
    ownLine .relaxed .arcSeal
      (' ' :: (sealTags (decimal number) sealer.domain sealer.selector cv.asStr []).write)

theorem build_eq (number : ℕ) (cv : ChainValidation) (prior : List Instance)
    (authResults messageSignature : Text) :
    AsSeal.build p sealer number cv prior authResults messageSignature =
      ' ' :: (sealTags (decimal number) sealer.domain sealer.selector cv.asStr (p.base64Encode
        (sealer.sign (encodeUtf8
          (sealInput sealer number cv prior authResults messageSignature))))).write := by
  have hunsigned := write_sealTags (decimal number) sealer.domain sealer.selector cv.asStr []
  rw [List.append_nil] at hunsigned
  rw [← write_sealTags, sealInput, ← hunsigned]
  unfold AsSeal.build
  dsimp only

/-- **A seal of ours is good** in a chain in which the instances up to its own are those that it was
made for. -/
theorem sealPasses_write (laws : SealerLaws p keys sealer) (hpublished : Published p keys sealer)
    (hpos : number ≠ 0) (hle : number ≤ maxInstance) {cv : ChainValidation}
    {prior chain : List Instance} {authResults messageSignature : Text} {own : Instance}
    (hown : own.number = number)
    (hseal : own.arcSeal = (sealTags (decimal number) sealer.domain sealer.selector cv.asStr
      (p.base64Encode (sealer.sign (encodeUtf8
        (sealInput sealer number cv prior authResults messageSignature))))).write)
    (hprior : ∀ x ∈ prior, x.number ≠ number)
    (hchain : (AsSeal.sorted chain).filter (fun x ↦ x.number ≤ number) =
      AsSeal.sorted prior ++ [own])
    (hsame : AsSeal.appendInstance own.authResults own.messageSignature =
      AsSeal.appendInstance authResults messageSignature) : sealPasses p keys own chain = true := by
  have hfit := fit_sealTags (plain_decimal number) sealer.domain_plain sealer.selector_plain cv
    (laws.encode_plain (sealer.sign (encodeUtf8
      (sealInput sealer number cv prior authResults messageSignature))))
  have hearlier : ∀ line : Text, (AsSeal.sorted prior).flatMap (fun x ↦ if x.number = number then
      AsSeal.appendInstance x.authResults x.messageSignature ++ line else AsSeal.earlier x) =
      (AsSeal.sorted prior).flatMap AsSeal.earlier := by
    intro line
    refine List.flatMap_congr fun x hx ↦ ?_
    rw [if_neg (hprior x ((List.mem_insertionSort _).1 hx))]
  have hcovered : AsSeal.covered ⟨number, .ed25519Sha256, toAsciiLowercase sealer.domain,
      toAsciiLowercase sealer.selector, cv, sealer.sign (encodeUtf8
        (sealInput sealer number cv prior authResults messageSignature)), none⟩ own.arcSeal chain =
      sealInput sealer number cv prior authResults messageSignature := by
    rw [AsSeal.covered, hseal, hchain, Tags.stripB_write (by simp [sealTags]) hfit,
      unsigned_sealTags, List.flatMap_append, hearlier, List.flatMap_singleton, if_pos hown, hsame,
      sealInput, ownLine_space, List.append_assoc]
  rw [sealPasses, hseal, parseSeal_write laws hpos hle, Option.any_some, decide_eq_true_eq,
    AsSeal.verify, ← hseal, hcovered]
  exact check_sign laws hpublished _

end Signatures

end Epistle.Arc
