/-
Images that differ in payloads only. If no payload that is loaded meets the
bytes that are read outside of the heap of user strings, a file that differs
from an image in such payloads loads as well. Its scan finds the same loads up to
their texts and the same failures, and its redaction gives the same copy
(`scan_redact_of_changed_payloads`). In particular a redacted copy is redacted to
itself.

One thing may change: the error of a method that already failed at a token which
points into a payload (`PointsIntoChange`). What is found there is tried before
it is refused for where it stands.
-/
import ManagedImage.Proofs.PayloadRedaction
import ManagedImage.Proofs.ReadSpans

namespace ManagedImage

/-! ## Outcomes up to an excuse -/

/-- Two successes that are related, or two failures, with one error unless the first is excused. -/
inductive SameOutcome {α β : Type} (excuse : Error → Prop) (same : α → β → Prop) :
    Except Error α → Except Error β → Prop where
  | ok {a : α} {b : β} (h : same a b) : SameOutcome excuse same (.ok a) (.ok b)
  | error {e e' : Error} (h : e' = e ∨ excuse e) : SameOutcome excuse same (.error e) (.error e')

namespace SameOutcome

variable {α β γ δ : Type} {excuse excuse' : Error → Prop} {same : α → β → Prop}
  {same' : γ → δ → Prop} {x : Except Error α} {y : Except Error β}

theorem refl {same : α → α → Prop} {x : Except Error α} (h : ∀ a, same a a) :
    SameOutcome excuse same x x := by
  cases x with
  | ok a => exact .ok (h a)
  | error e => exact .error (.inl rfl)

theorem bind {f : α → Except Error γ} {g : β → Except Error δ} (h : SameOutcome excuse same x y)
    (next : ∀ a b, same a b → SameOutcome excuse same' (f a) (g b)) :
    SameOutcome excuse same' (x >>= f) (y >>= g) := by
  cases h with
  | ok h => exact next _ _ h
  | error h => exact .error h

theorem mono (h : SameOutcome excuse same x y) (imp : ∀ e, excuse e → excuse' e) :
    SameOutcome excuse' same x y := by
  cases h with
  | ok h => exact .ok h
  | error h => exact .error (h.imp_right (imp _))

theorem mapM {f : γ → Except Error α} {g : γ → Except Error β} {l : List γ}
    (each : ∀ c ∈ l, SameOutcome excuse same (f c) (g c)) :
    SameOutcome excuse (List.Forall₂ same) (l.mapM f) (l.mapM g) := by
  induction l with
  | nil => exact .ok .nil
  | cons c l ih =>
    rw [List.mapM_cons, List.mapM_cons]
    refine (each c List.mem_cons_self).bind fun a b first => ?_
    refine (ih fun d mem => each d (List.mem_cons_of_mem _ mem)).bind fun as bs later => ?_
    exact .ok (.cons first later)

end SameOutcome

/-! ## Loads up to their texts -/

namespace StringLoad

/-- A load without the text of its string. -/
def withoutValue (load : StringLoad) : StringLoad := { load with value := "" }

@[simp] theorem entry_withoutValue (load : StringLoad) : load.withoutValue.entry = load.entry := rfl

theorem after_withoutValue (entry : Nat) (loads : List StringLoad) :
    dropRepeats.after entry (loads.map withoutValue) =
      (dropRepeats.after entry loads).map withoutValue := by
  induction loads generalizing entry with
  | nil => rfl
  | cons load later ih =>
    rw [List.map_cons, dropRepeats.after, dropRepeats.after, entry_withoutValue]
    split
    · exact ih entry
    · rw [ih, List.map_cons]

/-- The texts have no part in which load of an entry is kept. -/
theorem firstPerEntry_withoutValue (loads : List StringLoad) :
    firstPerEntry (loads.map withoutValue) = (firstPerEntry loads).map withoutValue := by
  have sorted := List.map_mergeSort (r := fun a b : StringLoad => a.entry ≤ b.entry)
    (s := fun a b : StringLoad => a.entry ≤ b.entry) (f := withoutValue) (l := loads)
    fun _ _ _ _ => rfl
  unfold firstPerEntry
  rw [← sorted]
  cases loads.mergeSort fun a b => a.entry ≤ b.entry with
  | nil => rfl
  | cons load later =>
    rw [List.map_cons, dropRepeats, dropRepeats, entry_withoutValue, after_withoutValue, List.map_cons]

theorem filterMap_withoutValue {loads loads' : List (Option StringLoad)}
    (h : List.Forall₂ (fun load load' => load'.map withoutValue = load.map withoutValue) loads loads') :
    (loads'.filterMap id).map withoutValue = (loads.filterMap id).map withoutValue := by
  have each : loads'.map (Option.map withoutValue) = loads.map (Option.map withoutValue) := by
    induction h with
    | nil => rfl
    | cons first later ih => rw [List.map_cons, List.map_cons, first, ih]
  have kept : ∀ loads : List (Option StringLoad), (loads.filterMap id).map withoutValue =
      (loads.map (Option.map withoutValue)).filterMap id := by
    intro loads
    rw [List.map_filterMap, List.filterMap_map]
    rfl
  rw [kept, kept, each]

end StringLoad

/-- The payloads that are overwritten do not depend on the texts. -/
theorem ScanReport.targets_congr {r r' : ScanReport}
    (same : r'.loads.map StringLoad.withoutValue = r.loads.map StringLoad.withoutValue) :
    r'.targets (fun _ => true) = r.targets fun _ => true := by
  have blind : ∀ r : ScanReport, r.targets (fun _ => true) =
      (StringLoad.firstPerEntry (r.loads.map StringLoad.withoutValue)).map StringLoad.payload := by
    intro r
    rw [StringLoad.firstPerEntry_withoutValue, List.map_map, targets, List.filter_true]
    rfl
  rw [blind, blind, same]

/-! ## Failures up to excused errors -/

/-- The same method has failed, with the same error unless the first failure is excused. -/
structure SameFailure (excuse : MethodFailure → Prop) (f g : MethodFailure) : Prop where
  rid : g.rid = f.rid
  token : g.token = f.token
  error : g.error = f.error ∨ excuse f

theorem SameFailure.refl (excuse : MethodFailure → Prop) (f : MethodFailure) : SameFailure excuse f f :=
  ⟨rfl, rfl, .inl rfl⟩

/-- Sorting by number keeps failures of the same methods beside each other. -/
theorem forall₂_mergeSort {excuse : MethodFailure → Prop} {fs gs : List MethodFailure}
    (h : List.Forall₂ (SameFailure excuse) fs gs) :
    List.Forall₂ (SameFailure excuse) (fs.mergeSort fun a b => a.rid ≤ b.rid)
      (gs.mergeSort fun a b => a.rid ≤ b.rid) := by
  obtain ⟨length, each⟩ := List.forall₂_iff_zip.1 h
  have left : (fs.zip gs).map Prod.fst = fs := List.map_fst_zip (Nat.le_of_eq length)
  have right : (fs.zip gs).map Prod.snd = gs := List.map_snd_zip (Nat.le_of_eq length.symm)
  have same : ∀ p ∈ fs.zip gs, SameFailure excuse p.1 p.2 := fun p mem => each mem
  have sorted := List.map_mergeSort (r := fun p q : MethodFailure × MethodFailure => p.1.rid ≤ q.1.rid)
    (s := fun a b : MethodFailure => a.rid ≤ b.rid) (f := Prod.fst) (l := fs.zip gs)
    fun _ _ _ _ => rfl
  have sorted' := List.map_mergeSort (r := fun p q : MethodFailure × MethodFailure => p.1.rid ≤ q.1.rid)
    (s := fun a b : MethodFailure => a.rid ≤ b.rid) (f := Prod.snd) (l := fs.zip gs)
    fun p mem q mem' => by rw [(same p mem).rid, (same q mem').rid]
  rw [left] at sorted
  rw [right] at sorted'
  rw [← sorted, ← sorted', List.forall₂_map_left_iff, List.forall₂_map_right_iff, List.forall₂_same]
  exact fun p mem => same p (List.mem_mergeSort.1 mem)

/-! ## Bytes that differ in payloads -/

namespace Image

variable {data b : Bytes} {i : Image} {config : ScanConfig} {us : Span} {s : UserString}

/-- The byte at a position belongs to the payload of a string that is loaded. -/
def IsPayload (i : Image) (config : ScanConfig) (pos : Nat) : Prop :=
  ∃ load ∈ (i.scan config).loads, pos ∈ load.payload

/-- Bytes that differ from those of an image in payloads that are loaded, and nowhere else. -/
structure ChangedPayloads (i : Image) (config : ScanConfig) (b : Bytes) : Prop where
  size : b.size = i.data.size
  outside : ∀ pos, ¬ i.IsPayload config pos → b[pos]? = i.data[pos]?

/-- No byte that is read outside of the heap belongs to a payload that is loaded. -/
def PayloadsApart (i : Image) (config : ScanConfig) : Prop :=
  ∀ span ∈ i.readSpans, ∀ pos ∈ span, ¬ i.IsPayload config pos

theorem reaches_of_isPayload (loaded : Loaded data i) {pos : Nat} (h : i.IsPayload config pos) :
    ∃ us s, i.Reaches us s ∧ pos ∈ s.payloadSpan.shift us.start := by
  obtain ⟨load, mem, there⟩ := h
  obtain ⟨us, s, reached, -, payload⟩ := entry_of_load loaded mem
  exact ⟨us, s, reached, payload ▸ there⟩

theorem alike_of_changed (loaded : Loaded data i) (apart : i.PayloadsApart config)
    (changed : i.ChangedPayloads config b) : i.Alike b where
  size := changed.size.symm
  reads span mem pos low high := (changed.outside pos (apart span mem pos ⟨low, high⟩)).symm
  first us span pos low high := by
    refine (changed.outside pos fun payload => ?_).symm
    obtain ⟨us', s, reached, there⟩ := reaches_of_isPayload loaded payload
    obtain rfl := reached.span_eq span
    -- a payload begins behind its length
    have stands := (UserStringHeap.standsIn_of_mem_walk reached.walked).prefixSize_eq
    have positive := Compressed.width_pos ((userStringsIn i.data us').data.getD s.offset 0)
    rw [← stands] at positive
    simp only [Span.mem_def, Span.shift, UserString.payloadSpan] at there
    omega

/-- The walk reaches the same entries of the heap, up to the payloads. -/
theorem shapes_of_changed (loaded : Loaded data i) (changed : i.ChangedPayloads config b)
    (span : i.streamSpan? "#US" = some us) :
    (userStringsIn b us).walk.done.map UserString.shape =
      (userStringsIn i.data us).walk.done.map UserString.shape := by
  refine (walk_of_changed_payloads loaded span changed.size fun pos free => ?_).1
  refine changed.outside pos fun payload => ?_
  obtain ⟨us', s, reached, there⟩ := reaches_of_isPayload loaded payload
  obtain rfl := reached.span_eq span
  exact free s reached there

theorem reaches_iff_of_changed (loaded : Loaded data i) (changed : i.ChangedPayloads config b)
    (shape : UserString.Shape) :
    (∃ s, (i.withData b).Reaches us s ∧ s.shape = shape) ↔ ∃ s, i.Reaches us s ∧ s.shape = shape := by
  constructor
  · rintro ⟨s, ⟨span, walked⟩, rfl⟩
    have listed : s.shape ∈ (userStringsIn i.data us).walk.done.map UserString.shape :=
      shapes_of_changed loaded changed span ▸ List.mem_map_of_mem walked
    obtain ⟨s', walked', same⟩ := List.mem_map.1 listed
    exact ⟨s', ⟨span, walked'⟩, same⟩
  · rintro ⟨s, ⟨span, walked⟩, rfl⟩
    have listed : s.shape ∈ (userStringsIn b us).walk.done.map UserString.shape :=
      (shapes_of_changed loaded changed span).symm ▸ List.mem_map_of_mem walked
    obtain ⟨s', walked', same⟩ := List.mem_map.1 listed
    exact ⟨s', ⟨span, walked'⟩, same⟩

/-! ## Resolving tokens again -/

/-- The token of a site points to a length that has another byte than in the image. -/
def PointsIntoChange (i : Image) (b : Bytes) (site : StringSite) : Prop :=
  site.token.isUserString = true ∧ ∃ us pos, i.streamSpan? "#US" = some us ∧
    us.start + site.token.index.toNat ≤ pos ∧
    pos < us.start + site.token.index.toNat +
      Compressed.width ((userStringsIn i.data us).data.getD site.token.index.toNat 0) ∧
    b[pos]? ≠ i.data[pos]?

/-- A failure at a string load of the method whose token points into what was changed. -/
def Excused (i : Image) (config : ScanConfig) (b : Bytes) (failure : MethodFailure) : Prop :=
  ∃ code ∈ i.methodBodies.found, code.rid = failure.rid ∧
    ∃ found, LoadScope.sites i.data code = .ok found ∧ ∃ site ∈ found,
      i.PointsIntoChange b site ∧
      (LoadScope.ofImage i config).resolve code site = .error failure.error

end Image

namespace LoadScope

variable {data b : Bytes} {i : Image} {config : ScanConfig} {us : Span} {code : MethodCode}
  {site : StringSite}

/-- Why a token does not resolve that is not of an entry which the walk reaches. -/
def lostError (heap : UserStringHeap) (code : MethodCode) (site : StringSite) : Error :=
  match heap.get site.token.index.toNat with
  | .ok _ => .malformed (.insideEntry (siteOffset code site) site.token)
  | .error e => e

theorem resolve_of_unreached (loaded : Image.Loaded data i) (known : site.token.isUserString = true)
    (span : i.streamSpan? "#US" = some us)
    (unreached : ¬ ∃ s, i.Reaches us s ∧ s.offset = site.token.index.toNat) :
    (ofImage i config).resolve code site =
      .error (lostError (Image.userStringsIn i.data us) code site) := by
  obtain ⟨opened, -⟩ := Image.userStrings?_of_span loaded span
  rw [resolve_of_heap known opened, entries_of_heap opened, lostError]
  cases found : (Image.userStringsIn i.data us).get site.token.index.toNat with
  | error e => rfl
  | ok s =>
    have outside : (entriesOf (Image.userStringsIn i.data us)).contains s.offset ≠ true := by
      intro inside
      obtain ⟨walked, offset⟩ := get_contains.1 ⟨found, inside⟩
      exact unreached ⟨s, ⟨span, walked⟩, offset⟩
    show (if _ then _ else _ : Except Error (Option StringLoad)) = _
    rw [if_neg outside]
    rfl

/-- Unless the token points into what was changed, it does not resolve for the same reason. -/
theorem lostError_of_changed (changed : i.ChangedPayloads config b)
    (known : site.token.isUserString = true)
    (span : i.streamSpan? "#US" = some us) (apart : ¬ i.PointsIntoChange b site) :
    lostError (Image.userStringsIn b us) code site =
      lostError (Image.userStringsIn i.data us) code site := by
  have size : (Image.userStringsIn i.data us).data.size = (Image.userStringsIn b us).data.size := by
    simp only [Image.userStringsIn, Array.size_extract, changed.size]
  have same := @UserStringHeap.get_length_congr (Image.userStringsIn i.data us)
    (Image.userStringsIn b us) site.token.index.toNat size fun pos low high => by
      simp only [Image.userStringsIn, Array.getElem?_extract, changed.size]
      split
      · by_contra other
        exact apart ⟨known, us, us.start + pos, span, by omega, by omega, fun same => other same.symm⟩
      · rfl
  unfold lostError
  cases found : (Image.userStringsIn i.data us).get site.token.index.toNat with
  | error e => rw [Except.error_of_map_eq same found]
  | ok s =>
    obtain ⟨s', found', -⟩ := Except.ok_of_map_eq same found
    rw [found']

/-- Entries of one shape give the same load, up to its text. -/
theorem withoutValue_loadOf {scope : LoadScope} {offset : Nat} {token : Token} {s s' : UserString}
    {heap heap' : Bytes} (stands : s.StandsIn heap) (stands' : s'.StandsIn heap')
    (shape : s'.shape = s.shape) :
    (scope.loadOf code offset token s').withoutValue =
      (scope.loadOf code offset token s).withoutValue := by
  have payload := UserString.payloadSpan_of_shape stands stands' shape
  have flag : s'.flag = s.flag := congrArg UserString.Shape.flag shape
  simp only [loadOf, StringLoad.withoutValue, payload, flag]

/-- A site resolves to the same load up to its text, or fails again. -/
theorem resolve_of_changed (loaded : Image.Loaded data i) (loaded' : Image.Loaded b (i.withData b))
    (changed : i.ChangedPayloads config b) :
    SameOutcome
      (fun e => i.PointsIntoChange b site ∧ (ofImage i config).resolve code site = .error e)
      (fun load load' : Option StringLoad =>
        load'.map StringLoad.withoutValue = load.map StringLoad.withoutValue)
      ((ofImage i config).resolve code site) ((ofImage (i.withData b) config).resolve code site) := by
  cases known : site.token.isUserString with
  | false =>
    have same : (ofImage (i.withData b) config).resolve code site =
        (ofImage i config).resolve code site := by
      rw [resolve_of_foreign known, resolve_of_foreign known]
      rfl
    rw [same]
    exact .refl fun _ => rfl
  | true =>
    cases span : i.streamSpan? "#US" with
    | none =>
      have none' : (ofImage (i.withData b) config).heap = none :=
        Image.userStrings?_of_no_span (i := i.withData b) span
      rw [resolve_of_no_heap known (Image.userStrings?_of_no_span span), resolve_of_no_heap known none']
      exact .error (.inl rfl)
    | some us =>
      have span' : (i.withData b).streamSpan? "#US" = some us := span
      by_cases reached : ∃ s, i.Reaches us s ∧ s.offset = site.token.index.toNat
      · obtain ⟨s, there, offset⟩ := reached
        obtain ⟨s', there', shape⟩ :=
          (Image.reaches_iff_of_changed loaded changed s.shape).2 ⟨s, there, rfl⟩
        have offset' : s'.offset = site.token.index.toNat :=
          (congrArg UserString.Shape.offset shape).trans offset
        rw [(resolve_eq_some loaded).2 ⟨known, us, s, there, offset, rfl⟩,
          (resolve_eq_some loaded').2 ⟨known, us, s', there', offset', rfl⟩]
        exact .ok (congrArg some (withoutValue_loadOf
          (UserStringHeap.standsIn_of_mem_walk there.walked)
          (UserStringHeap.standsIn_of_mem_walk there'.walked) shape))
      · have unreached : ¬ ∃ s, (i.withData b).Reaches us s ∧ s.offset = site.token.index.toNat := by
          rintro ⟨s', there', offset⟩
          obtain ⟨s, there, shape⟩ :=
            (Image.reaches_iff_of_changed loaded changed s'.shape).1 ⟨s', there', rfl⟩
          exact reached ⟨s, there, (congrArg UserString.Shape.offset shape).trans offset⟩
        rw [resolve_of_unreached loaded known span reached,
          resolve_of_unreached loaded' known span' unreached]
        refine .error ?_
        by_cases points : i.PointsIntoChange b site
        · exact .inr ⟨points, rfl⟩
        · exact .inl (lostError_of_changed changed known span points)

theorem sites_of_changed (alike : i.Alike b) (mem : code ∈ i.methodBodies.found) :
    sites b code = sites i.data code := by
  have agree := Image.code_of_alike alike mem
  have whole : code.body.codeSpan.start + code.body.codeSpan.length = code.body.codeSpan.stop :=
    Nat.add_sub_cancel' (Image.codeSpan_fits mem).1
  unfold sites
  rw [Bytes.Agree.slice (whole ▸ agree) alike.size]

/-- A method is scanned to the same loads up to their texts, or fails again. -/
theorem scanMethod_of_changed (loaded : Image.Loaded data i)
    (loaded' : Image.Loaded b (i.withData b)) (alike : i.Alike b)
    (changed : i.ChangedPayloads config b) (mem : code ∈ i.methodBodies.found) :
    SameOutcome (fun e => i.Excused config b ⟨code.rid, code.token, e⟩)
      (fun loads loads' : List StringLoad =>
        loads'.map StringLoad.withoutValue = loads.map StringLoad.withoutValue)
      ((ofImage i config).scanMethod i.data code)
      ((ofImage (i.withData b) config).scanMethod b code) := by
  unfold scanMethod
  rw [sites_of_changed alike mem]
  cases listed : sites i.data code with
  | error e => exact .error (.inl rfl)
  | ok found =>
    have all := SameOutcome.mapM (l := found) fun site there =>
      (@resolve_of_changed _ _ _ config code site loaded loaded' changed).mono fun e ⟨points, failed⟩ =>
        (⟨code, mem, rfl, found, listed, site, there, points, failed⟩ :
          i.Excused config b ⟨code.rid, code.token, e⟩)
    exact all.bind fun loads loads' same => .ok (StringLoad.filterMap_withoutValue same)

end LoadScope

/-! ## Reports of changed images -/

theorem ScanReport.ofMethods_congr {scan scan' : MethodCode → Except Error (List StringLoad)}
    {codes : List MethodCode} {excuse : MethodFailure → Prop}
    (each : ∀ code ∈ codes, SameOutcome (fun e => excuse ⟨code.rid, code.token, e⟩)
      (fun loads loads' : List StringLoad =>
        loads'.map StringLoad.withoutValue = loads.map StringLoad.withoutValue)
      (scan code) (scan' code)) :
    (ofMethods scan' codes).loads.map StringLoad.withoutValue =
        (ofMethods scan codes).loads.map StringLoad.withoutValue ∧
      (ofMethods scan' codes).scanned = (ofMethods scan codes).scanned ∧
      List.Forall₂ (SameFailure excuse) (ofMethods scan codes).failures
        (ofMethods scan' codes).failures := by
  induction codes with
  | nil => exact ⟨rfl, rfl, .nil⟩
  | cons code codes ih =>
    obtain ⟨loads, scanned, failures⟩ := ih fun other mem => each other (List.mem_cons_of_mem _ mem)
    have first := each code List.mem_cons_self
    rw [ofMethods_cons, ofMethods_cons]
    generalize scan code = x at first
    generalize scan' code = y at first
    cases first with
    | @ok own own' same =>
      refine ⟨?_, congrArg (· + 1) scanned, failures⟩
      show (own' ++ _).map _ = (own ++ _).map _
      rw [List.map_append, List.map_append, same, loads]
    | error h => exact ⟨loads, scanned, .cons ⟨rfl, rfl, h⟩ failures⟩

namespace Image

variable {data b : Bytes} {i : Image} {config : ScanConfig}

theorem scan_of_changed (loaded : Loaded data i) (alike : i.Alike b)
    (changed : i.ChangedPayloads config b) :
    ((i.withData b).scan config).loads.map StringLoad.withoutValue =
        (i.scan config).loads.map StringLoad.withoutValue ∧
      ((i.withData b).scan config).scanned = (i.scan config).scanned ∧
      ((i.withData b).scan config).withoutBody = (i.scan config).withoutBody ∧
      List.Forall₂ (SameFailure (i.Excused config b)) (i.scan config).failures
        ((i.withData b).scan config).failures := by
  have loaded' := loaded_of_alike loaded alike
  have bodies := methodBodies_of_alike alike
  obtain ⟨loads, scanned, failures⟩ := ScanReport.ofMethods_congr fun code mem =>
    @LoadScope.scanMethod_of_changed _ _ _ config code loaded loaded' alike changed mem
  unfold scan
  dsimp only
  rw [bodies]
  refine ⟨loads, scanned, rfl, forall₂_mergeSort (List.rel_append ?_ failures)⟩
  exact List.forall₂_same.2 fun failure _ => SameFailure.refl _ failure

theorem isPayload_iff (loaded : Loaded data i) {pos : Nat} :
    i.IsPayload config pos ↔ ∃ span ∈ (i.scan config).targets (fun _ => true), pos ∈ span := by
  constructor
  · rintro ⟨load, mem, there⟩
    obtain ⟨us, s, reached, offset, payload⟩ := entry_of_load loaded mem
    exact ⟨load.payload,
      (mem_targets loaded).2 ⟨us, s, ⟨reached, load, mem, rfl, offset.symm⟩, payload⟩, there⟩
  · rintro ⟨span, target, there⟩
    obtain ⟨kept, mem, rfl⟩ := List.mem_map.1 target
    exact ⟨kept, (List.mem_filter.1 (StringLoad.mem_of_mem_firstPerEntry mem)).1, there⟩

/-- Whatever the payloads were, a redaction of all of them gives the same copy. -/
theorem redact_of_changed (loaded : Loaded data i) (alike : i.Alike b)
    (changed : i.ChangedPayloads config b) :
    (i.withData b).redact ((i.withData b).scan config) config = i.redact (i.scan config) config := by
  have targets := ScanReport.targets_congr (scan_of_changed loaded alike changed).1
  unfold redact
  rw [redactWhere_eq loaded, redactWhere_eq (loaded_of_alike loaded alike), targets]
  refine congrArg (fun bytes => Except.ok (RedactedImage.mk bytes _)) ?_
  apply Array.ext_getElem?
  intro pos
  show (b.overwriteAll _ _)[pos]? = _
  by_cases payload : i.IsPayload config pos
  · have target := (isPayload_iff loaded).1 payload
    obtain ⟨span, mem, there⟩ := target
    have inside : pos < i.data.size := Nat.lt_of_lt_of_le there.2 (targets_fit loaded mem).2
    rw [Bytes.getElem?_overwriteAll_of_mem (changed.size ▸ inside) ⟨span, mem, there⟩,
      Bytes.getElem?_overwriteAll_of_mem inside ⟨span, mem, there⟩]
  · have free : ∀ span ∈ (i.scan config).targets (fun _ => true), pos ∉ span :=
      fun span mem there => payload ((isPayload_iff loaded).2 ⟨span, mem, there⟩)
    rw [Bytes.getElem?_overwriteAll_of_notMem free, Bytes.getElem?_overwriteAll_of_notMem free,
      changed.outside pos payload]

/-- A redacted copy differs from the image in payloads that are loaded. -/
theorem changed_of_redact (loaded : Loaded data i) {copy : RedactedImage}
    (redacted : i.redact (i.scan config) config = .ok copy) : i.ChangedPayloads config copy.data := by
  unfold redact at redacted
  rw [redactWhere_eq loaded] at redacted
  cases redacted
  refine ⟨Bytes.size_overwriteAll .., fun pos free => ?_⟩
  exact Bytes.getElem?_overwriteAll_of_notMem fun span mem there =>
    free ((isPayload_iff loaded).2 ⟨span, mem, there⟩)

/--
**Payloads have no part in a scan but for the texts, and none in a redaction.** If
no payload that is loaded meets a byte that is read outside of the heap, any file
that differs from the image in such payloads only loads. Its scan has the same
counts, the same loads up to their texts and failures of the same methods, with
the same errors except at a token that points into what was changed. Its
redaction is that of the image. So a redacted copy loads and is redacted to
itself.
-/
theorem scan_redact_of_changed_payloads (loads : Image.ofBytes data = .ok i)
    (apart : i.PayloadsApart config) :
    ∃ copy, i.redact (i.scan config) config = .ok copy ∧
      (∀ b : Bytes, b.size = data.size →
        (∀ pos, ¬ i.IsPayload config pos → b[pos]? = data[pos]?) →
        ∃ j, Image.ofBytes b = .ok j ∧
          (j.scan config).loads.map StringLoad.withoutValue =
            (i.scan config).loads.map StringLoad.withoutValue ∧
          (j.scan config).scanned = (i.scan config).scanned ∧
          (j.scan config).withoutBody = (i.scan config).withoutBody ∧
          List.Forall₂ (SameFailure (i.Excused config b)) (i.scan config).failures
            (j.scan config).failures ∧
          j.redact (j.scan config) config = .ok copy) ∧
      ∃ j, Image.ofBytes copy.data = .ok j ∧ j.redact (j.scan config) config = .ok copy := by
  have loaded := ofBytes_eq_ok.1 loads
  have redacted := @redactWhere_eq data i config loaded fun _ => true
  refine ⟨_, redacted, fun b size outside => ?_, ?_⟩
  · rw [← data_of_loaded loaded] at size outside
    have changed : i.ChangedPayloads config b := ⟨size, outside⟩
    have alike := alike_of_changed loaded apart changed
    obtain ⟨same, scanned, withoutBody, failures⟩ := scan_of_changed loaded alike changed
    exact ⟨i.withData b, ofBytes_eq_ok.2 (loaded_of_alike loaded alike), same, scanned, withoutBody,
      failures, (redact_of_changed loaded alike changed).trans redacted⟩
  · have changed := changed_of_redact loaded redacted
    have alike := alike_of_changed loaded apart changed
    exact ⟨i.withData _, ofBytes_eq_ok.2 (loaded_of_alike loaded alike),
      (redact_of_changed loaded alike changed).trans redacted⟩

theorem payloadsApart_of_spans
    (h : ∀ span ∈ i.readSpans, ∀ load ∈ (i.scan config).loads,
      span.stop ≤ load.payload.start ∨ load.payload.stop ≤ span.start) : i.PayloadsApart config := by
  rintro span mem pos ⟨low, high⟩ ⟨load, listed, low', high'⟩
  have apart := h span mem load listed
  omega

theorem isPayload_of_mem {span : Span} (mem : span ∈ (i.scan config).loads.map StringLoad.payload)
    {pos : Nat} (inside : pos ∈ span) : i.IsPayload config pos := by
  obtain ⟨load, listed, rfl⟩ := List.mem_map.1 mem
  exact ⟨load, listed, inside⟩

/-- In the small image one payload is loaded, and a token points into it. -/
theorem smallImage_apart :
    ∃ i, Image.ofBytes smallImage = .ok i ∧
      (∀ span ∈ i.readSpans, ∀ load ∈ (i.scan .standard).loads,
        span.stop ≤ load.payload.start ∨ load.payload.stop ≤ span.start) ∧
      (i.scan .standard).loads.map StringLoad.payload = [⟨522, 526⟩] ∧
      (i.scan .standard).failures = [⟨2, ⟨0x06000002⟩, .outOfBounds 3 64 7⟩] :=
  exists_smallImage (by decide +kernel)

theorem scan_redact_of_changed_payloads_small :
    ∃ i copy, Image.ofBytes smallImage = .ok i ∧ i.PayloadsApart .standard ∧
      i.IsPayload .standard 522 ∧ i.redact (i.scan .standard) .standard = .ok copy ∧
      ∃ j, Image.ofBytes copy.data = .ok j ∧ j.redact (j.scan .standard) .standard = .ok copy := by
  obtain ⟨i, loads, spans, payloads, -⟩ := smallImage_apart
  have apart : i.PayloadsApart .standard := payloadsApart_of_spans spans
  obtain ⟨copy, redacted, -, again⟩ := scan_redact_of_changed_payloads loads apart
  have inside : i.IsPayload .standard 522 :=
    isPayload_of_mem (payloads ▸ List.mem_cons_self) ⟨Nat.le_refl _, by decide⟩
  exact ⟨i, copy, loads, apart, inside, redacted, again⟩

/-- The same image with its one payload overwritten, as a redaction does it. -/
def smallCopy : Bytes := smallImage.overwrite 0 522 4

theorem smallCopy_failures :
    ((Image.ofBytes smallCopy).toOption.any fun j => decide ((j.scan .standard).failures =
      [⟨2, ⟨0x06000002⟩, .malformed (.insideEntry 534 ⟨0x70000002⟩)⟩])) = true := by decide +kernel

/--
The errors of failures can change with the payloads: the second method of the
small image points into the payload, where it first finds a length that is too
great and then an entry that is no entry of the walk.
-/
theorem failures_of_changed_payloads_differ :
    ∃ i j, Image.ofBytes smallImage = .ok i ∧ i.PayloadsApart .standard ∧
      smallCopy.size = smallImage.size ∧
      (∀ pos, ¬ i.IsPayload .standard pos → smallCopy[pos]? = smallImage[pos]?) ∧
      Image.ofBytes smallCopy = .ok j ∧
      (j.scan .standard).failures ≠ (i.scan .standard).failures := by
  obtain ⟨i, loads, spans, payloads, failures⟩ := smallImage_apart
  have check := smallCopy_failures
  cases outcome : Image.ofBytes smallCopy with
  | error e => rw [outcome] at check; cases check
  | ok j =>
    rw [outcome] at check
    have failures' := of_decide_eq_true check
    refine ⟨i, j, loads, payloadsApart_of_spans spans, Bytes.size_overwrite .., ?_, rfl, ?_⟩
    · intro pos free
      refine (Bytes.getElem?_overwrite ..).trans (if_neg fun inside => free ?_)
      exact isPayload_of_mem (payloads ▸ List.mem_cons_self) ⟨inside.1, inside.2.1⟩
    · rw [failures, failures']
      decide

end Image

end ManagedImage
