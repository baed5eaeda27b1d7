/-
Passing over foreign tokens. A scan may pass over string loads whose token is of another
table than the heap of user strings. Such a scan goes on where a strict one stops, and what
it finds further on may be an error of another kind. Compared with the strict scan it
nevertheless only gains: a site of a foreign token has no load instead of an error, and any
other site has the same outcome under both (`LoadScope.resolve_lenient`), so a method
without foreign tokens has the same outcome, and a method with some cannot have been
scanned strictly.

Main statement: the reports of the two scans side by side (`Image.scan_lenient`).
-/
import ManagedImage.Proofs.MethodScan

namespace ManagedImage

/-- Whether the instruction is a string load whose token is of the heap of user strings. -/
def Instruction.loadsUserString (ins : Instruction) : Bool :=
  ins.loadsString && ins.token?.any (·.selector = 0x70)

/-! ## A method under both scans -/

namespace LoadScope

variable {data : Bytes} {i : Image} {strict lenient : ScanConfig} {code : MethodCode}

/-- The scans differ in the sites of foreign tokens only, which the lenient one passes over. -/
theorem resolve_lenient (strict : ScanConfig) (passes : lenient.skipForeign = true)
    (site : StringSite) :
    (ofImage i lenient).resolve code site =
      if site.token.isUserString then (ofImage i strict).resolve code site else .ok none := by
  cases known : site.token.isUserString with
  | false =>
    rw [resolve_of_foreign known]
    exact if_pos passes
  | true =>
    rw [if_pos rfl]
    -- A token of the heap is resolved without regard to what the scans differ in.
    unfold resolve
    rw [known]
    rfl

theorem resolve_lenient_of_some (loaded : Image.Loaded data i) (passes : lenient.skipForeign = true)
    {site : StringSite} {load : StringLoad}
    (resolved : (ofImage i strict).resolve code site = .ok (some load)) :
    (ofImage i lenient).resolve code site = .ok (some load) := by
  obtain ⟨known, -⟩ := (resolve_eq_some loaded).1 resolved
  rw [resolve_lenient strict passes, if_pos known, resolved]

/-- A method that is scanned strictly has no foreign tokens to pass over. -/
theorem scanMethod_lenient_of_strict (loaded : Image.Loaded data i)
    (stops : strict.skipForeign = false) (passes : lenient.skipForeign = true) {file : Bytes}
    {loads : List StringLoad} (scanned : (ofImage i strict).scanMethod file code = .ok loads) :
    (ofImage i lenient).scanMethod file code = .ok loads := by
  obtain ⟨found, listed, resolved⟩ := (scanMethod_strict stops).1 scanned
  refine scanMethod_eq_ok.2 ⟨found, loads.map some, listed, ?_, ?_⟩
  · exact List.forall₂_map_right_iff.2 <|
      resolved.imp fun _ _ one => resolve_lenient_of_some loaded passes one
  · rw [List.filterMap_map]
    exact List.filterMap_some.symm

/-- What the lenient scan finds are the loads of the sites that it does not pass over. -/
theorem scanMethod_lenient (passes : lenient.skipForeign = true)
    {file : Bytes} {loads : List StringLoad}
    (scanned : (ofImage i lenient).scanMethod file code = .ok loads) :
    ∃ found, sites file code = .ok found ∧
      List.Forall₂ (fun site load => (ofImage i lenient).resolve code site = .ok (some load))
        (found.filter (·.token.isUserString)) loads := by
  obtain ⟨found, results, listed, resolved, rfl⟩ := scanMethod_eq_ok.1 scanned
  refine ⟨found, listed, ?_⟩
  clear scanned listed
  induction resolved with
  | nil => exact .nil
  | @cons site result found results first later ih =>
    have same : (ofImage i lenient).resolve code site = _ :=
      resolve_lenient { lenient with skipForeign := false } passes site
    rw [first] at same
    cases known : site.token.isUserString with
    | false =>
      rw [known, if_neg Bool.false_ne_true] at same
      cases same
      rw [List.filter_cons_of_neg (by rw [known]; exact Bool.false_ne_true)]
      exact ih
    | true =>
      rw [known, if_pos rfl] at same
      rw [List.filter_cons_of_pos (by exact known)]
      cases result with
      | none => exact absurd same.symm (resolve_ne_none rfl)
      | some load => exact .cons first ih

/-- A method that only the lenient scan can scan has a site of a foreign token. -/
theorem exists_foreign (passes : lenient.skipForeign = true) {file : Bytes}
    {loads : List StringLoad} {found : List StringSite} {e : Error}
    (listed : sites file code = .ok found)
    (scanned : (ofImage i lenient).scanMethod file code = .ok loads)
    (failed : (ofImage i strict).scanMethod file code = .error e) :
    ∃ site ∈ found, site.token.isUserString = false := by
  by_contra none
  have known : ∀ site ∈ found, site.token.isUserString = true :=
    fun site mem => Bool.not_eq_false _ ▸ fun foreign => none ⟨site, mem, foreign⟩
  obtain ⟨found', results, listed', resolved, rfl⟩ := scanMethod_eq_ok.1 scanned
  obtain rfl : found' = found := Except.ok.inj (listed'.symm.trans listed)
  have strictly : List.Forall₂ (fun site result => (ofImage i strict).resolve code site = .ok result)
      found' results := by
    refine ((List.forall₂_and_left _ _).2 ⟨known, resolved⟩).imp fun site result => ?_
    rintro ⟨known, one⟩
    rwa [resolve_lenient strict passes, if_pos known] at one
  rw [scanMethod_eq_ok.2 ⟨found', results, listed, strictly, rfl⟩] at failed
  cases failed

end LoadScope

/-! ## The two reports -/

/-- Where one scan of methods has the loads of another and perhaps more, so has its report. -/
theorem ScanReport.loads_sublist {scan scan' : MethodCode → Except Error (List StringLoad)}
    (more : ∀ code loads, scan code = .ok loads → scan' code = .ok loads) (codes : List MethodCode) :
    (ofMethods scan codes).loads.Sublist (ofMethods scan' codes).loads := by
  induction codes with
  | nil => exact .slnil
  | cons code codes ih =>
    rw [ofMethods_cons, ofMethods_cons]
    cases outcome : scan code with
    | ok loads =>
      rw [more code loads outcome]
      exact ih.append_left loads
    | error e =>
      cases scan' code with
      | ok loads => exact ih.trans (List.sublist_append_right ..)
      | error e' => exact ih

namespace Image

variable {data : Bytes} {i : Image} {strict lenient : ScanConfig} {code : MethodCode}

theorem not_failed_iff {config : ScanConfig} (loaded : Loaded data i)
    (mem : code ∈ i.methodBodies.found) : ¬ (i.scan config).Failed code.rid ↔
      ∃ loads, (LoadScope.ofImage i config).scanMethod i.data code = .ok loads := by
  rw [failed_iff loaded mem]
  cases (LoadScope.ofImage i config).scanMethod i.data code with
  | error e => exact ⟨fun h => absurd ⟨e, rfl⟩ h, fun ⟨_, h⟩ => nomatch h⟩
  | ok loads => exact ⟨fun _ => ⟨loads, rfl⟩, fun _ ⟨_, h⟩ => nomatch h⟩

/-- The loads of the lenient scan tell of the string loads that it does not pass over. -/
theorem lenient_describes (loaded : Loaded data i) (mem : code ∈ i.methodBodies.found)
    (passes : lenient.skipForeign = true) {loads : List StringLoad}
    (scanned : (LoadScope.ofImage i lenient).scanMethod i.data code = .ok loads) :
    ∃ list, Instruction.readAll.run (code.bytes i.data) = .ok list ∧
      LoadScope.sites i.data code = .ok (list.filterMap Instruction.stringSite?) ∧
      List.Forall₂ (fun ins load => load.Describes i code ins)
        (list.filter Instruction.loadsUserString) loads := by
  obtain ⟨found, listed, resolved⟩ := LoadScope.scanMethod_lenient passes scanned
  obtain ⟨list, read, rfl⟩ := (sites_eq_ok mem).1 listed
  refine ⟨list, read, listed, ?_⟩
  -- The sites that are not passed over, beside their instructions.
  have kept : (list.filter Instruction.loadsString).filter
      (fun ins => ins.token?.any (·.selector = 0x70)) = list.filter Instruction.loadsUserString := by
    rw [List.filter_filter]
    exact List.filter_congr fun ins _ => Bool.and_comm ..
  have sites := List.rel_filter (p := fun ins => ins.token?.any (·.selector = 0x70))
    (q := fun site => site.token.isUserString)
    (fun ins site ⟨_, token⟩ => by simp only [token, Option.any_some]; rfl) (sites_of_readAll read)
  rw [kept] at sites
  have sites := (List.forall₂_and_left _ _).2
    ⟨fun ins there => List.mem_filter.1 there, sites⟩
  refine (forall₂_comp sites resolved).imp fun ins load => ?_
  rintro ⟨site, ⟨⟨there, isLoad⟩, offset, token⟩, resolved⟩
  exact describes_of_resolve loaded mem read there (Bool.and_eq_true_iff.1 isLoad).1 offset token
    resolved

/--
The scan that passes over foreign tokens, beside the strict one. A method that the strict
scan can scan has the same loads in both reports, and a method that fails in the lenient
one fails in the strict one. A method that fails in the strict one only has a string load of
a foreign token; its loads in the lenient report tell of its other string loads, one by one
and in order.
-/
theorem scan_lenient (loads : Image.ofBytes data = .ok i) (stops : strict.skipForeign = false)
    (passes : lenient.skipForeign = true) :
    (i.scan lenient).withoutBody = (i.scan strict).withoutBody ∧
    (∀ code ∈ i.methodBodies.found, ¬ (i.scan strict).Failed code.rid →
      ¬ (i.scan lenient).Failed code.rid ∧
        (i.scan lenient).loads.filter (·.rid = code.rid) =
          (i.scan strict).loads.filter (·.rid = code.rid)) ∧
    (i.scan strict).loads.Sublist (i.scan lenient).loads ∧
    (∀ rid, (i.scan lenient).Failed rid → (i.scan strict).Failed rid) ∧
    ∀ rid, (i.scan strict).Failed rid → ¬ (i.scan lenient).Failed rid →
      ∃ code ∈ i.methodBodies.found, code.rid = rid ∧
        ∃ list, Instruction.readAll.run (code.bytes data) = .ok list ∧
          (∃ ins ∈ list, ins.loadsString = true ∧
            ∃ token, ins.token? = some token ∧ token.selector ≠ 0x70) ∧
          List.Forall₂ (fun ins load => load.Describes i code ins)
            (list.filter Instruction.loadsUserString)
            ((i.scan lenient).loads.filter (·.rid = rid)) := by
  have loaded := ofBytes_eq_ok.1 loads
  rw [← data_of_loaded loaded]
  have more : ∀ code loads, (LoadScope.ofImage i strict).scanMethod i.data code = .ok loads →
      (LoadScope.ofImage i lenient).scanMethod i.data code = .ok loads :=
    fun code loads => LoadScope.scanMethod_lenient_of_strict loaded stops passes
  refine ⟨rfl, fun code mem scanned => ?_, ScanReport.loads_sublist more _, ?_, ?_⟩
  · obtain ⟨loads, strictly⟩ := (not_failed_iff loaded mem).1 scanned
    have leniently := more code loads strictly
    rw [scan_loads_of_rid loaded mem strictly, scan_loads_of_rid loaded mem leniently]
    exact ⟨(not_failed_iff loaded mem).2 ⟨loads, leniently⟩, rfl⟩
  · rintro rid ⟨failure, there, rfl⟩
    rcases mem_scan_failures.1 there with lost | ⟨code, mem, e, failed, rfl⟩
    · exact ⟨failure, mem_scan_failures.2 (.inl lost), rfl⟩
    · -- Were it scanned strictly, it would be scanned leniently.
      by_contra scanned
      obtain ⟨loads, strictly⟩ := (not_failed_iff loaded mem).1 scanned
      rw [more code loads strictly] at failed
      cases failed
  · rintro rid ⟨failure, there, rfl⟩ scanned
    rcases mem_scan_failures.1 there with lost | ⟨code, mem, e, failed, rfl⟩
    · exact absurd ⟨failure, mem_scan_failures.2 (.inl lost), rfl⟩ scanned
    · obtain ⟨loads, leniently⟩ := (not_failed_iff loaded mem).1 scanned
      obtain ⟨list, read, listed, described⟩ := lenient_describes loaded mem passes leniently
      obtain ⟨site, there, foreign⟩ := LoadScope.exists_foreign passes listed leniently failed
      rw [scan_loads_of_rid loaded mem leniently]
      refine ⟨code, mem, rfl, list, read, ?_, described⟩
      obtain ⟨ins, there, offset, token⟩ := forall₂_of_mem (sites_of_readAll read).flip there
      obtain ⟨inList, isLoad⟩ := List.mem_filter.1 there
      exact ⟨ins, inList, isLoad, site.token, token, of_decide_eq_false foreign⟩

/--
The small image with one method that has the code of both, and with a foreign token in its
second string load. The other method has no code.
-/
def foreignImage : Bytes :=
  (((smallImage.setIfInBounds 506 0).setIfInBounds 507 0).setIfInBounds 527 0x2E).setIfInBounds 538 1

theorem scan_lenient_foreign :
    ∃ i, Image.ofBytes foreignImage = .ok i ∧
      ScanConfig.standard.skipForeign = false ∧ ScanConfig.lenient.skipForeign = true ∧
      ((i.scan .standard).loads = [] ∧ (i.scan .standard).failures.map (·.rid) = [1]) ∧
      ((i.scan .lenient).loads.map (·.value) = ["AB"] ∧ (i.scan .lenient).failures = []) ∧
      (i.scan .standard).loads.Sublist (i.scan .lenient).loads ∧
      ∃ code ∈ i.methodBodies.found, code.rid = 1 ∧
        ∃ list, Instruction.readAll.run (code.bytes foreignImage) = .ok list ∧
          (∃ ins ∈ list, ins.loadsString = true ∧
            ∃ token, ins.token? = some token ∧ token.selector ≠ 0x70) ∧
          List.Forall₂ (fun ins load => load.Describes i code ins)
            (list.filter Instruction.loadsUserString)
            ((i.scan .lenient).loads.filter (·.rid = 1)) := by
  obtain ⟨i, loads, strictly, leniently⟩ : ∃ i, Image.ofBytes foreignImage = .ok i ∧
      ((i.scan .standard).loads = [] ∧ (i.scan .standard).failures.map (·.rid) = [1]) ∧
      ((i.scan .lenient).loads.map (·.value) = ["AB"] ∧ (i.scan .lenient).failures = []) :=
    Except.exists_of_check (by decide +kernel)
  have stops : ScanConfig.standard.skipForeign = false := rfl
  have passes : ScanConfig.lenient.skipForeign = true := rfl
  obtain ⟨-, -, sublist, -, only⟩ := scan_lenient loads stops passes
  have failed : (i.scan .standard).Failed 1 := by
    have first : 1 ∈ (i.scan .standard).failures.map (·.rid) := by
      rw [strictly.2]
      exact List.mem_cons_self
    obtain ⟨failure, there, rid⟩ := List.mem_map.1 first
    exact ⟨failure, there, rid⟩
  have scanned : ¬ (i.scan .lenient).Failed 1 := by
    rintro ⟨failure, there, -⟩
    rw [leniently.2] at there
    cases there
  exact ⟨i, loads, stops, passes, strictly, leniently, sublist, only 1 failed scanned⟩

end Image

end ManagedImage
