/-
The scan of methods. A method with a body is scanned without failure exactly if
its code decodes to the end and each string load in it has the token of an entry
that the walk of the heap of user strings reaches; the report then has one load
for each, in the order of the code (`scan_reports_string_loads`).

The report keeps the outcomes of the methods apart, for no two methods have one
number: the loads of a number are those of one scan (`loads_of_rid`).
-/
import Mathlib.Data.List.Forall2
import Mathlib.Data.List.Nodup
import ManagedImage.Proofs.Loading
import ManagedImage.Proofs.StringSites
import ManagedImage.Proofs.UserStringWalk
import ManagedImage.Redaction.Scan

namespace ManagedImage

section Forall₂

variable {α β γ : Type} {R : α → β → Prop} {S : β → γ → Prop}
  {as : List α} {bs : List β} {cs : List γ}

theorem forall₂_comp (h : List.Forall₂ R as bs) (h' : List.Forall₂ S bs cs) :
    List.Forall₂ (fun a c => ∃ b, R a b ∧ S b c) as cs := by
  induction h generalizing cs with
  | nil => cases h'; exact .nil
  | cons first later ih =>
    cases h' with
    | cons first' later' => exact .cons ⟨_, first, first'⟩ (ih later')

theorem forall₂_extend (h : List.Forall₂ R as bs) (next : ∀ a ∈ as, ∀ b, R a b → ∃ c, S b c) :
    ∃ cs, List.Forall₂ S bs cs := by
  induction h with
  | nil => exact ⟨[], .nil⟩
  | @cons a b as bs first later ih =>
    obtain ⟨c, first'⟩ := next a List.mem_cons_self b first
    obtain ⟨cs, later'⟩ := ih fun a mem => next a (List.mem_cons_of_mem _ mem)
    exact ⟨c :: cs, .cons first' later'⟩

end Forall₂

/-! ## Reports -/

namespace ScanReport

variable {scan : MethodCode → Except Error (List StringLoad)} {codes : List MethodCode}

theorem ofMethods_cons (scan : MethodCode → Except Error (List StringLoad)) (code : MethodCode)
    (codes : List MethodCode) :
    ofMethods scan (code :: codes) = (ofMethods scan codes).add code (scan code) := rfl

theorem mem_failures {failure : MethodFailure} :
    failure ∈ (ofMethods scan codes).failures ↔
      ∃ code ∈ codes, ∃ e, scan code = .error e ∧ failure = ⟨code.rid, code.token, e⟩ := by
  induction codes with
  | nil => simp [ofMethods, empty]
  | cons code codes ih =>
    rw [ofMethods_cons, List.exists_mem_cons_iff, ← ih]
    cases scan code <;> simp [add]

theorem mem_loads {load : StringLoad} :
    load ∈ (ofMethods scan codes).loads ↔
      ∃ code ∈ codes, ∃ loads, scan code = .ok loads ∧ load ∈ loads := by
  induction codes with
  | nil => simp [ofMethods, empty]
  | cons code codes ih =>
    rw [ofMethods_cons, List.exists_mem_cons_iff, ← ih]
    cases scan code <;> simp [add]

/-- The loads of a number are those of the one method that has it. -/
theorem loads_of_rid (distinct : (codes.map MethodCode.rid).Nodup)
    (own : ∀ code loads, scan code = .ok loads → ∀ load ∈ loads, load.rid = code.rid)
    {code : MethodCode} {loads : List StringLoad} (mem : code ∈ codes)
    (scanned : scan code = .ok loads) :
    (ofMethods scan codes).loads.filter (·.rid = code.rid) = loads := by
  induction codes with
  | nil => cases mem
  | cons first codes ih =>
    rw [List.map_cons, List.nodup_cons] at distinct
    have others : ∀ load ∈ (ofMethods scan codes).loads, load.rid ∈ codes.map MethodCode.rid := by
      intro load mem
      obtain ⟨code, there, loads, scanned, mem⟩ := mem_loads.1 mem
      rw [own code loads scanned load mem]
      exact List.mem_map_of_mem there
    rw [ofMethods_cons]
    rcases List.mem_cons.1 mem with rfl | later
    · rw [scanned]
      show List.filter _ (loads ++ (ofMethods scan codes).loads) = loads
      have all : loads.filter (·.rid = code.rid) = loads :=
        List.filter_eq_self.2 fun load mem => decide_eq_true (own code loads scanned load mem)
      have none : (ofMethods scan codes).loads.filter (·.rid = code.rid) = [] := by
        refine List.filter_eq_nil_iff.2 fun load mem same => distinct.1 ?_
        rw [← of_decide_eq_true same]
        exact others load mem
      rw [List.filter_append, all, none, List.append_nil]
    · cases outcome : scan first with
      | error e => exact ih distinct.2 later
      | ok loads' =>
        show List.filter _ (loads' ++ (ofMethods scan codes).loads) = loads
        have none : loads'.filter (·.rid = code.rid) = [] := by
          refine List.filter_eq_nil_iff.2 fun load mem same => distinct.1 ?_
          rw [← own first loads' outcome load mem, of_decide_eq_true same]
          exact List.mem_map_of_mem later
        rw [List.filter_append, none, List.nil_append, ih distinct.2 later]

end ScanReport

/-! ## Resolving tokens -/

/-- An entry that the walk of the heap of user strings reaches, and the range of the heap. -/
structure Image.Reaches (i : Image) (us : Span) (s : UserString) : Prop where
  span : i.streamSpan? "#US" = some us
  walked : s ∈ (Image.userStringsIn i.data us).walk.done

theorem Image.Reaches.span_eq {i : Image} {us us' : Span} {s : UserString} (h : i.Reaches us' s)
    (span : i.streamSpan? "#US" = some us) : us' = us :=
  Option.some.inj (h.span.symm.trans span)

namespace LoadScope

/-- What is found at an entry's position is the entry, and an entry is found at its position. -/
theorem get_contains {heap : UserStringHeap} {offset : Nat} {s : UserString} :
    heap.get offset = .ok s ∧ (entriesOf heap).contains s.offset = true ↔
      s ∈ heap.walk.done ∧ s.offset = offset := by
  rw [entriesOf, Positions.contains_ofList, List.mem_map]
  constructor
  · rintro ⟨found, ⟨s', walked, same⟩, -⟩
    obtain ⟨at_offset, -⟩ := UserStringHeap.get_eq_ok found
    have found' := UserStringHeap.get_of_mem_walk walked
    rw [same, at_offset, found] at found'
    cases found'
    exact ⟨walked, at_offset⟩
  · rintro ⟨walked, rfl⟩
    have stands := UserStringHeap.standsIn_of_mem_walk walked
    have forward := UserStringHeap.lt_stop (UserStringHeap.get_of_mem_walk walked)
    exact ⟨UserStringHeap.get_of_mem_walk walked, ⟨s, walked, rfl⟩,
      Nat.lt_of_lt_of_le forward stands.stop_le_size⟩

variable {data : Bytes} {i : Image} {config : ScanConfig} {code : MethodCode} {site : StringSite}

/-- Where a site of a method stands in the file. -/
def siteOffset (code : MethodCode) (site : StringSite) : Nat := code.body.codeSpan.start + site.offset

theorem resolve_of_foreign {s : LoadScope} (foreign : site.token.isUserString = false) :
    s.resolve code site = if s.skipForeign then .ok none
      else .error (.malformed (.foreignToken (siteOffset code site) site.token)) := by
  unfold resolve
  rw [foreign]
  rfl

theorem resolve_of_no_heap {s : LoadScope} (known : site.token.isUserString = true)
    (none : s.heap = none) :
    s.resolve code site = .error (.malformed (.noUserStrings (siteOffset code site))) := by
  unfold resolve
  rw [known, none]
  rfl

theorem resolve_of_heap {s : LoadScope} {heap : UserStringHeap}
    (known : site.token.isUserString = true) (some : s.heap = some heap) :
    s.resolve code site = (do
      let entry ← heap.get site.token.index.toNat
      if s.entries.contains entry.offset then
        return Option.some (s.loadOf code (siteOffset code site) site.token entry)
      else throw (.malformed (.insideEntry (siteOffset code site) site.token))) := by
  unfold resolve
  rw [known, some]
  rfl

theorem heapStart_of_span {us : Span} (span : i.streamSpan? "#US" = some us) :
    (ofImage i config).heapStart = us.start := by rw [ofImage, span]; rfl

theorem entries_of_heap {heap : UserStringHeap} (opened : i.userStrings? = some heap) :
    (ofImage i config).entries = entriesOf heap := by rw [ofImage, opened]; rfl

/-- A token resolves exactly if it is that of an entry which the walk reaches. -/
theorem resolve_eq_some {load : StringLoad} (loaded : Image.Loaded data i) :
    (ofImage i config).resolve code site = .ok (some load) ↔
      site.token.isUserString = true ∧ ∃ us s, i.Reaches us s ∧
        s.offset = site.token.index.toNat ∧
        load = (ofImage i config).loadOf code (siteOffset code site) site.token s := by
  cases known : site.token.isUserString with
  | false =>
    rw [resolve_of_foreign known]
    constructor
    · intro h; split at h <;> cases h
    · rintro ⟨⟨⟩, -⟩
  | true =>
    cases span : i.streamSpan? "#US" with
    | none =>
      rw [resolve_of_no_heap known (Image.userStrings?_of_no_span span)]
      constructor
      · intro h; cases h
      · rintro ⟨-, us, s, reached, -⟩
        have span' := reached.span
        rw [span] at span'
        cases span'
    | some us =>
      obtain ⟨opened, -⟩ := Image.userStrings?_of_span loaded span
      rw [resolve_of_heap known opened, Except.bind_eq_ok, entries_of_heap opened]
      constructor
      · rintro ⟨s, found, h⟩
        split at h
        case isTrue inside =>
          obtain ⟨walked, offset⟩ := get_contains.1 ⟨found, inside⟩
          exact ⟨rfl, us, s, ⟨span, walked⟩, offset, (Option.some.inj (Except.ok.inj h)).symm⟩
        case isFalse => cases h
      · rintro ⟨-, us', s, reached, offset, rfl⟩
        obtain rfl := reached.span_eq span
        obtain ⟨found, inside⟩ := get_contains.2 ⟨reached.walked, offset⟩
        refine ⟨s, found, ?_⟩
        rw [if_pos inside]
        rfl

/-- Unless foreign tokens are passed over, a site that is no failure is a load. -/
theorem resolve_ne_none (strict : config.skipForeign = false) :
    (ofImage i config).resolve code site ≠ .ok none := by
  intro h
  unfold resolve at h
  split at h
  · split at h
    · cases h
    · obtain ⟨s, -, h⟩ := Except.bind_eq_ok.1 h
      split at h <;> cases h
  · rw [ofImage, strict] at h
    cases h

end LoadScope

/-! ## Scanning a method -/

/-- The code of a method. -/
def MethodCode.bytes (data : Bytes) (code : MethodCode) : Bytes :=
  data.extract code.body.codeSpan.start code.body.codeSpan.stop

namespace LoadScope

variable {data : Bytes} {i : Image} {config : ScanConfig} {code : MethodCode}

theorem sites_eq (order : code.body.codeSpan.start ≤ code.body.codeSpan.stop)
    (fits : code.body.codeSpan.stop ≤ data.size) :
    sites data code = StringSite.findAll (code.bytes data) := by
  have whole : code.body.codeSpan.start + code.body.codeSpan.length = code.body.codeSpan.stop :=
    Nat.add_sub_cancel' order
  have cut : data.slice code.body.codeSpan.start code.body.codeSpan.length = .ok (code.bytes data) :=
    Bytes.slice_eq_ok.2 ⟨whole ▸ fits, by rw [whole]; rfl⟩
  rw [sites, cut]
  rfl

theorem scanMethod_eq_ok {s : LoadScope} {loads : List StringLoad} :
    s.scanMethod data code = .ok loads ↔
      ∃ found results, sites data code = .ok found ∧
        List.Forall₂ (fun site result => s.resolve code site = .ok result) found results ∧
        loads = results.filterMap id := by
  unfold scanMethod
  rw [Except.bind_eq_ok]
  constructor
  · rintro ⟨found, listed, h⟩
    obtain ⟨results, resolved, h⟩ := Except.bind_eq_ok.1 h
    cases h
    exact ⟨found, results, listed, Except.mapM_eq_ok.1 resolved, rfl⟩
  · rintro ⟨found, results, listed, resolved, rfl⟩
    exact ⟨found, listed, Except.bind_eq_ok.2 ⟨results, Except.mapM_eq_ok.2 resolved, rfl⟩⟩

/-- If no site is passed over, there is one load for each. -/
theorem scanMethod_strict (strict : config.skipForeign = false) {loads : List StringLoad} :
    (ofImage i config).scanMethod data code = .ok loads ↔
      ∃ found, sites data code = .ok found ∧
        List.Forall₂ (fun site load => (ofImage i config).resolve code site = .ok (some load))
          found loads := by
  have each : ∀ (found : List StringSite) (results : List (Option StringLoad)),
      List.Forall₂ (fun site result => (ofImage i config).resolve code site = .ok result)
        found results →
      List.Forall₂ (fun site load => (ofImage i config).resolve code site = .ok (some load))
        found (results.filterMap id) := by
    intro found results all
    induction all with
    | nil => exact .nil
    | @cons site result found results first later ih =>
      cases result with
      | none => exact absurd first (resolve_ne_none strict)
      | some load => exact .cons first ih
  rw [scanMethod_eq_ok]
  constructor
  · rintro ⟨found, results, listed, resolved, rfl⟩
    exact ⟨found, listed, each found results resolved⟩
  · rintro ⟨found, listed, resolved⟩
    refine ⟨found, loads.map some, listed, List.forall₂_map_right_iff.2 resolved, ?_⟩
    rw [List.filterMap_map]
    exact (List.filterMap_some).symm

theorem mem_scanMethod {s : LoadScope} {loads : List StringLoad} {load : StringLoad}
    (scanned : s.scanMethod data code = .ok loads) (mem : load ∈ loads) :
    ∃ site, s.resolve code site = .ok (some load) := by
  obtain ⟨found, results, -, resolved, rfl⟩ := scanMethod_eq_ok.1 scanned
  obtain ⟨result, there, rfl⟩ := List.mem_filterMap.1 mem
  clear mem scanned
  induction resolved with
  | nil => cases there
  | @cons site _ _ _ first later ih =>
    rcases List.mem_cons.1 there with rfl | there
    · exact ⟨site, first⟩
    · exact ih there

theorem rid_of_scanMethod (loaded : Image.Loaded data i) {file : Bytes} {loads : List StringLoad}
    (scanned : (ofImage i config).scanMethod file code = .ok loads) :
    ∀ load ∈ loads, load.rid = code.rid := by
  intro load mem
  obtain ⟨site, resolved⟩ := mem_scanMethod scanned mem
  obtain ⟨-, us, s, -, -, rfl⟩ := (resolve_eq_some loaded).1 resolved
  rfl

end LoadScope

/-! ## The report of an image -/

/-- Whether a method of a number could not be found or scanned. -/
def ScanReport.Failed (r : ScanReport) (rid : Nat) : Prop := ∃ failure ∈ r.failures, failure.rid = rid

/-- The instruction has the token of an entry that the walk of the heap of user strings reaches. -/
def Instruction.Resolves (i : Image) (ins : Instruction) : Prop :=
  ∃ token us s, ins.token? = some token ∧ token.selector = 0x70 ∧ i.Reaches us s ∧
    s.offset = token.value.toNat % 0x1000000

/-- The load is that of an instruction of a method, which loads an entry of the heap. -/
structure StringLoad.Describes (load : StringLoad) (i : Image) (code : MethodCode)
    (ins : Instruction) : Prop where
  rid : load.rid = code.rid
  method : load.method = code.token
  offset : load.instructionOffset = code.body.codeSpan.start + ins.offset
  opcode : i.data[load.instructionOffset]? = some 0x72
  stored : load.instructionOffset + 5 ≤ i.data.size ∧
    load.token.value = UInt32.ofNat (i.data.leNat (load.instructionOffset + 1) 4)
  token : ins.token? = some load.token
  entry : load.entry = load.token.value.toNat % 0x1000000
  content : ∃ us s, i.Reaches us s ∧ s.offset = load.entry ∧
    load.payload = s.payloadSpan.shift us.start ∧ load.flag = s.flag ∧ load.value = s.text

namespace Image

variable {data : Bytes} {i : Image} {config : ScanConfig} {code : MethodCode}

theorem mem_scan_loads {load : StringLoad} :
    load ∈ (i.scan config).loads ↔
      ∃ code ∈ i.methodBodies.found, ∃ loads,
        (LoadScope.ofImage i config).scanMethod i.data code = .ok loads ∧ load ∈ loads :=
  ScanReport.mem_loads

theorem mem_scan_failures {failure : MethodFailure} :
    failure ∈ (i.scan config).failures ↔
      failure ∈ i.methodBodies.failures ∨
        ∃ code ∈ i.methodBodies.found, ∃ e,
          (LoadScope.ofImage i config).scanMethod i.data code = .error e ∧
            failure = ⟨code.rid, code.token, e⟩ := by
  show failure ∈ List.mergeSort _ _ ↔ _
  rw [List.mem_mergeSort, List.mem_append, ScanReport.mem_failures]

theorem found_nodup (loaded : Loaded data i) : (i.methodBodies.found.map MethodCode.rid).Nodup :=
  (MethodBodies.found_rids_sublist ..).nodup (methods_nodup loaded)

theorem failed_iff (loaded : Loaded data i) (mem : code ∈ i.methodBodies.found) :
    (i.scan config).Failed code.rid ↔
      ∃ e, (LoadScope.ofImage i config).scanMethod i.data code = .error e := by
  constructor
  · rintro ⟨failure, there, same⟩
    rcases mem_scan_failures.1 there with missing | ⟨code', mem', e, failed, rfl⟩
    · -- A method whose body was found is no method whose body was not.
      obtain ⟨method, listed, found⟩ := MethodBodies.mem_found.1 mem
      obtain ⟨method', listed', e, lost, rfl⟩ := MethodBodies.mem_failures.1 missing
      have rids : method'.rid = method.rid := same.trans (MethodBodies.rid_of_locate found)
      have one := List.inj_on_of_nodup_map (methods_nodup loaded) listed' listed rids
      rw [one, found] at lost
      cases lost
    · have one := List.inj_on_of_nodup_map (found_nodup loaded) mem' mem same
      exact ⟨e, one ▸ failed⟩
  · rintro ⟨e, failed⟩
    exact ⟨⟨code.rid, code.token, e⟩, mem_scan_failures.2 (.inr ⟨code, mem, e, failed, rfl⟩), rfl⟩

theorem scan_loads_of_rid (loaded : Loaded data i) (mem : code ∈ i.methodBodies.found)
    {loads : List StringLoad}
    (scanned : (LoadScope.ofImage i config).scanMethod i.data code = .ok loads) :
    (i.scan config).loads.filter (·.rid = code.rid) = loads :=
  ScanReport.loads_of_rid (found_nodup loaded)
    (fun _ _ => LoadScope.rid_of_scanMethod loaded) mem scanned

theorem codeSpan_fits (mem : code ∈ i.methodBodies.found) :
    code.body.codeSpan.start ≤ code.body.codeSpan.stop ∧ code.body.codeSpan.stop ≤ i.data.size := by
  obtain ⟨method, -, found⟩ := MethodBodies.mem_found.1 mem
  exact MethodBodies.codeSpan_fits found

/-- The sites of a method are the string loads among its instructions. -/
theorem sites_eq_ok (mem : code ∈ i.methodBodies.found) {found : List StringSite} :
    LoadScope.sites i.data code = .ok found ↔
      ∃ list, Instruction.readAll.run (code.bytes i.data) = .ok list ∧
        found = list.filterMap Instruction.stringSite? := by
  obtain ⟨order, fits⟩ := codeSpan_fits mem
  rw [LoadScope.sites_eq order fits, StringSite.findAll_eq_map_readAll]
  cases Instruction.readAll.run (code.bytes i.data) with
  | error e =>
    constructor
    · intro h; cases h
    · rintro ⟨list, ⟨⟩, -⟩
  | ok list =>
    constructor
    · intro h; exact ⟨list, rfl, (Except.ok.inj h).symm⟩
    · rintro ⟨list', same, rfl⟩; cases same; rfl

/-- The sites of code that is read, beside the string loads they are of. -/
theorem sites_of_readAll {list : List Instruction} {code : Bytes}
    (read : Instruction.readAll.run code = .ok list) :
    List.Forall₂ (fun ins site => ins.offset = site.offset ∧ ins.token? = some site.token)
      (list.filter Instruction.loadsString) (list.filterMap Instruction.stringSite?) := by
  have all := @Instruction.filterMap_stringSite? list fun ins mem isLoad =>
    ⟨_, (Instruction.readAll_loadsString read mem isLoad).2.2⟩
  have pairs : List.Forall₂ Eq
      ((list.filter Instruction.loadsString).map fun ins => (ins.offset, ins.token?))
      ((list.filterMap Instruction.stringSite?).map fun site => (site.offset, some site.token)) := by
    rw [all]
    exact List.forall₂_refl _
  rw [List.forall₂_map_left_iff, List.forall₂_map_right_iff] at pairs
  exact pairs.imp fun ins site same => Prod.mk.inj same

/-- A load that an instruction's site resolves to tells of the instruction. -/
theorem describes_of_resolve (loaded : Loaded data i) (mem : code ∈ i.methodBodies.found)
    {list : List Instruction} (read : Instruction.readAll.run (code.bytes i.data) = .ok list)
    {ins : Instruction} (there : ins ∈ list) (isLoad : ins.loadsString = true) {site : StringSite}
    (offset : ins.offset = site.offset) (token : ins.token? = some site.token) {load : StringLoad}
    (resolved : (LoadScope.ofImage i config).resolve code site = .ok (some load)) :
    load.Describes i code ins := by
  obtain ⟨known, us, s, reached, entry, rfl⟩ := (LoadScope.resolve_eq_some loaded).1 resolved
  obtain ⟨order, fits⟩ := codeSpan_fits mem
  obtain ⟨inside, opcode, stored⟩ := Instruction.readAll_loadsString read there isLoad
  have size : (code.bytes i.data).size = code.body.codeSpan.stop - code.body.codeSpan.start := by
    rw [MethodCode.bytes, Array.size_extract, Nat.min_eq_left fits]
  have place : LoadScope.siteOffset code site = code.body.codeSpan.start + ins.offset := by
    rw [LoadScope.siteOffset, offset]
  have file : LoadScope.siteOffset code site + 5 ≤ i.data.size := by omega
  constructor
  case rid => rfl
  case method => rfl
  case offset => exact place
  case opcode =>
    show i.data[LoadScope.siteOffset code site]? = some 0x72
    have first : (code.bytes i.data)[ins.offset]? = some 0x72 :=
      (Bytes.getElem?_of_inside (by omega)).trans (congrArg some opcode)
    have same := @Bytes.getElem?_of_extract i.data (code.bytes i.data) _ _ ins.offset rfl (by omega)
    rw [place, ← same, first]
  case stored =>
    refine ⟨file, ?_⟩
    show site.token.value = _
    rw [token, Option.some.injEq, Token.mk.injEq] at stored
    have same := @Bytes.leNat_of_extract i.data (code.bytes i.data) _ _ (ins.offset + 1) 4 rfl
      (by omega)
    rw [stored, same, ← Nat.add_assoc, ← place]
    rfl
  case token => exact token
  case entry => exact Token.toNat_index site.token
  case content =>
    refine ⟨us, s, reached, entry, ?_, rfl, rfl⟩
    show s.payloadSpan.shift (LoadScope.ofImage i config).heapStart = _
    rw [LoadScope.heapStart_of_span reached.span]

theorem resolves_iff (loaded : Loaded data i) {ins : Instruction} {site : StringSite}
    (token : ins.token? = some site.token) :
    ins.Resolves i ↔
      ∃ load, (LoadScope.ofImage i config).resolve code site = .ok (some load) := by
  constructor
  · rintro ⟨token', us, s, has, selector, reached, offset⟩
    rw [token, Option.some.injEq] at has
    subst has
    refine ⟨_, (LoadScope.resolve_eq_some loaded).2 ⟨decide_eq_true selector, us, s, reached, ?_, rfl⟩⟩
    rw [offset, Token.toNat_index]
  · rintro ⟨load, resolved⟩
    obtain ⟨known, us, s, reached, offset, -⟩ := (LoadScope.resolve_eq_some loaded).1 resolved
    exact ⟨site.token, us, s, token, of_decide_eq_true known, reached,
      offset.trans (Token.toNat_index site.token)⟩

/-- Scanning a method is resolving the sites of its code. -/
theorem scanMethod_iff (strict : config.skipForeign = false) (mem : code ∈ i.methodBodies.found)
    {loads : List StringLoad} :
    (LoadScope.ofImage i config).scanMethod i.data code = .ok loads ↔
      ∃ list, Instruction.readAll.run (code.bytes i.data) = .ok list ∧
        List.Forall₂
          (fun site load => (LoadScope.ofImage i config).resolve code site = .ok (some load))
          (list.filterMap Instruction.stringSite?) loads := by
  rw [LoadScope.scanMethod_strict strict]
  constructor
  · rintro ⟨found, listed, resolved⟩
    obtain ⟨list, read, rfl⟩ := (sites_eq_ok mem).1 listed
    exact ⟨list, read, resolved⟩
  · rintro ⟨list, read, resolved⟩
    exact ⟨_, (sites_eq_ok mem).2 ⟨list, read, rfl⟩, resolved⟩

/-- A method is scanned exactly if its code is read and its string loads resolve. -/
theorem scanMethod_succeeds_iff (loaded : Loaded data i) (strict : config.skipForeign = false)
    (mem : code ∈ i.methodBodies.found) :
    (∃ loads, (LoadScope.ofImage i config).scanMethod i.data code = .ok loads) ↔
      ∃ list, Instruction.readAll.run (code.bytes i.data) = .ok list ∧
        ∀ ins ∈ list, ins.loadsString = true → ins.Resolves i := by
  constructor
  · rintro ⟨loads, scanned⟩
    obtain ⟨list, read, resolved⟩ := (scanMethod_iff strict mem).1 scanned
    refine ⟨list, read, fun ins there isLoad => ?_⟩
    have both := forall₂_comp (sites_of_readAll read) resolved
    obtain ⟨load, -, site, ⟨-, token⟩, one⟩ :=
      forall₂_of_mem both (List.mem_filter.2 ⟨there, isLoad⟩)
    exact (resolves_iff loaded token).2 ⟨load, one⟩
  · rintro ⟨list, read, all⟩
    have each : ∀ ins ∈ list.filter Instruction.loadsString, ∀ site : StringSite,
        ins.offset = site.offset ∧ ins.token? = some site.token →
        ∃ load, (LoadScope.ofImage i config).resolve code site = .ok (some load) := by
      rintro ins there site ⟨-, token⟩
      obtain ⟨listed, isLoad⟩ := List.mem_filter.1 there
      exact (resolves_iff loaded token).1 (all ins listed isLoad)
    obtain ⟨loads, resolved⟩ := forall₂_extend (sites_of_readAll read) each
    exact ⟨loads, (scanMethod_iff strict mem).2 ⟨list, read, resolved⟩⟩

/-- The loads of a method that is scanned tell of its string loads, one by one. -/
theorem scanMethod_describes (loaded : Loaded data i) (strict : config.skipForeign = false)
    (mem : code ∈ i.methodBodies.found) {loads : List StringLoad}
    (scanned : (LoadScope.ofImage i config).scanMethod i.data code = .ok loads) :
    ∃ list, Instruction.readAll.run (code.bytes i.data) = .ok list ∧
      List.Forall₂ (fun ins load => load.Describes i code ins)
        (list.filter Instruction.loadsString) loads := by
  obtain ⟨list, read, resolved⟩ := (scanMethod_iff strict mem).1 scanned
  refine ⟨list, read, ?_⟩
  have sites := (List.forall₂_and_left _ _).2
    ⟨fun ins there => List.mem_filter.1 there, sites_of_readAll read⟩
  refine (forall₂_comp sites resolved).imp fun ins load => ?_
  rintro ⟨site, ⟨⟨there, isLoad⟩, offset, token⟩, resolved⟩
  exact describes_of_resolve loaded mem read there isLoad offset token resolved

/--
**A scan reports the string loads of the methods that are sound, and nothing
else.** A method with a body has no failure exactly if its code is read to the
end and each string load in it has the token of an entry that the walk of the
heap of user strings reaches. Its loads in the report then tell of the string
loads of its code, one by one and in order. Each load is that of such a method.
-/
theorem scan_reports_string_loads (loads : Image.ofBytes data = .ok i)
    (strict : config.skipForeign = false) :
    (∀ code ∈ i.methodBodies.found,
      (¬ (i.scan config).Failed code.rid ↔
        ∃ list, Instruction.readAll.run (code.bytes data) = .ok list ∧
          ∀ ins ∈ list, ins.loadsString = true → ins.Resolves i) ∧
      (¬ (i.scan config).Failed code.rid →
        ∃ list, Instruction.readAll.run (code.bytes data) = .ok list ∧
          List.Forall₂ (fun ins load => load.Describes i code ins)
            (list.filter Instruction.loadsString)
            ((i.scan config).loads.filter (·.rid = code.rid)))) ∧
    ∀ load ∈ (i.scan config).loads, ∃ code ∈ i.methodBodies.found,
      load.rid = code.rid ∧ ¬ (i.scan config).Failed code.rid := by
  have loaded := ofBytes_eq_ok.1 loads
  rw [← data_of_loaded loaded]
  have succeeds : ∀ code ∈ i.methodBodies.found, (¬ (i.scan config).Failed code.rid ↔
      ∃ loads, (LoadScope.ofImage i config).scanMethod i.data code = .ok loads) := by
    intro code mem
    rw [failed_iff loaded mem]
    cases (LoadScope.ofImage i config).scanMethod i.data code with
    | error e => exact ⟨fun h => absurd ⟨e, rfl⟩ h, fun ⟨_, h⟩ => nomatch h⟩
    | ok loads => exact ⟨fun _ => ⟨loads, rfl⟩, fun _ ⟨_, h⟩ => nomatch h⟩
  refine ⟨fun code mem => ⟨?_, fun sound => ?_⟩, fun load there => ?_⟩
  · rw [succeeds code mem]
    exact scanMethod_succeeds_iff loaded strict mem
  · obtain ⟨loads, scanned⟩ := (succeeds code mem).1 sound
    rw [scan_loads_of_rid loaded mem scanned]
    exact scanMethod_describes loaded strict mem scanned
  · obtain ⟨code, mem, loads, scanned, there⟩ := mem_scan_loads.1 there
    exact ⟨code, mem, LoadScope.rid_of_scanMethod loaded scanned load there,
      (succeeds code mem).2 ⟨loads, scanned⟩⟩

/-- The scan of the small image finds the first method's load and the second one's failure. -/
theorem smallImage_scan :
    ∃ i, Image.ofBytes smallImage = .ok i ∧
      (i.scan .standard).loads.length = 1 ∧ (i.scan .standard).failures.length = 1 :=
  exists_smallImage (by decide +kernel)

theorem scan_reports_string_loads_small :
    ∃ i, Image.ofBytes smallImage = .ok i ∧ ScanConfig.standard.skipForeign = false ∧
      ((i.scan .standard).loads.length = 1 ∧ (i.scan .standard).failures.length = 1) ∧
      (∀ code ∈ i.methodBodies.found, ¬ (i.scan .standard).Failed code.rid →
        ∃ list, Instruction.readAll.run (code.bytes smallImage) = .ok list ∧
          List.Forall₂ (fun ins load => load.Describes i code ins)
            (list.filter Instruction.loadsString)
            ((i.scan .standard).loads.filter (·.rid = code.rid))) ∧
      ∀ load ∈ (i.scan .standard).loads, ∃ code ∈ i.methodBodies.found,
        load.rid = code.rid ∧ ¬ (i.scan .standard).Failed code.rid := by
  obtain ⟨i, loads, counts⟩ := smallImage_scan
  have strict : ScanConfig.standard.skipForeign = false := rfl
  have all := scan_reports_string_loads loads strict
  exact ⟨i, loads, strict, counts, fun code mem => (all.1 code mem).2, all.2⟩

end Image

end ManagedImage
