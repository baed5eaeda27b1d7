/-
What a report says of each method. The methods without a body, those that were
scanned and those that failed are all the methods, each of them once
(`scan_accounts_for_methods`). The failures stand in the order of the methods,
and so do the loads, those of one method in the order of its code.
-/
import ManagedImage.Proofs.InstructionOrder
import ManagedImage.Proofs.MethodScan

namespace ManagedImage

/-! ## The loads of a report -/

namespace LoadScope

variable {data : Bytes} {code : MethodCode} {s : LoadScope} {loads : List StringLoad}

theorem instructionOffset_of_resolve {site : StringSite} {load : StringLoad}
    (h : s.resolve code site = .ok (some load)) :
    load.instructionOffset = siteOffset code site := by
  unfold resolve at h
  split at h
  · split at h
    · cases h
    · obtain ⟨entry, -, h⟩ := Except.bind_eq_ok.1 h
      split at h
      · cases h; rfl
      · cases h
  · split at h <;> cases h

theorem ordered_of_scanMethod (h : s.scanMethod data code = .ok loads) :
    loads.Pairwise fun a b => a.instructionOffset < b.instructionOffset := by
  obtain ⟨found, results, listed, resolved, rfl⟩ := scanMethod_eq_ok.1 h
  obtain ⟨bytes, -, all⟩ := Except.bind_eq_ok.1 listed
  have order := StringSite.ordered_of_findAll all
  clear h listed all
  induction resolved with
  | nil => exact .nil
  | @cons site result found results first later ih =>
    obtain ⟨before, order⟩ := List.pairwise_cons.1 order
    cases result with
    | none => exact ih order
    | some load =>
      refine .cons (fun load' mem => ?_) (ih order)
      obtain ⟨result, mem, rfl⟩ := List.mem_filterMap.1 mem
      obtain ⟨site', mem, resolved⟩ := forall₂_of_mem later.flip mem
      have := before site' mem
      rw [instructionOffset_of_resolve first, instructionOffset_of_resolve resolved]
      simp only [siteOffset]
      omega

end LoadScope

namespace ScanReport

variable {scan : MethodCode → Except Error (List StringLoad)} {codes : List MethodCode}

/-- The loads are in the order of the methods, those of one method in the order of its code. -/
theorem ordered_loads (order : (codes.map MethodCode.rid).Pairwise (· < ·))
    (own : ∀ code loads, scan code = .ok loads → ∀ load ∈ loads, load.rid = code.rid)
    (within : ∀ code loads, scan code = .ok loads →
      loads.Pairwise fun a b => a.instructionOffset < b.instructionOffset) :
    (ofMethods scan codes).loads.Pairwise fun a b =>
      a.rid < b.rid ∨ a.rid = b.rid ∧ a.instructionOffset < b.instructionOffset := by
  induction codes with
  | nil => exact .nil
  | cons code codes ih =>
    rw [List.map_cons, List.pairwise_cons] at order
    rw [ofMethods_cons]
    cases outcome : scan code with
    | error e => exact ih order.2
    | ok loads =>
      refine List.pairwise_append.2 ⟨?_, ih order.2, fun a mem b mem' => .inl ?_⟩
      · refine (within code loads outcome).imp_of_mem fun {a b} mem mem' before => .inr ⟨?_, before⟩
        rw [own code loads outcome a mem, own code loads outcome b mem']
      · -- A load of a later method has the larger number.
        obtain ⟨code', there, loads', outcome', mem'⟩ := mem_loads.1 mem'
        rw [own code loads outcome a mem, own code' loads' outcome' b mem']
        exact order.1 _ (List.mem_map_of_mem there)

/-- The methods with a body are those that were scanned and those that failed. -/
theorem perm_ofMethods (scan : MethodCode → Except Error (List StringLoad))
    (codes : List MethodCode) :
    ((codes.filter fun code => (scan code).toOption.isSome).map MethodCode.rid ++
      (ofMethods scan codes).failures.map MethodFailure.rid).Perm (codes.map MethodCode.rid) ∧
    (ofMethods scan codes).scanned =
      (codes.filter fun code => (scan code).toOption.isSome).length := by
  induction codes with
  | nil => exact ⟨.nil, rfl⟩
  | cons code codes ih =>
    rw [ofMethods_cons]
    cases outcome : scan code with
    | error e =>
      have perm := List.perm_middle.trans (ih.1.cons code.rid)
      simpa [outcome, Except.toOption, add] using ⟨perm, ih.2⟩
    | ok loads => simpa [outcome, Except.toOption, add] using ih

end ScanReport

/-! ## The methods of an image -/

namespace MethodDefColumns

/-- Whether the method has no CIL code: it has no address, or its code is of another kind. -/
def Bodyless (m : MethodDefColumns) : Prop := m.rva = 0 ∨ m.codeKind ≠ .il

instance (m : MethodDefColumns) : Decidable m.Bodyless :=
  inferInstanceAs (Decidable (m.rva = 0 ∨ m.codeKind ≠ .il))

theorem bodyless_iff {m : MethodDefColumns} : m.Bodyless ↔ m.hasBody = false := by
  simp only [Bodyless, hasBody, Bool.and_eq_false_iff, decide_eq_false_iff_not, ne_eq, not_not]

end MethodDefColumns

namespace MethodBodies

variable {f : File} {method : Row MethodDefColumns} {methods : List (Row MethodDefColumns)}

theorem locate_eq_none_iff :
    MethodCode.locate f method = .ok none ↔ method.columns.Bodyless := by
  rw [MethodDefColumns.bodyless_iff, MethodCode.locate]
  cases method.columns.hasBody with
  | false => simp [pure, Except.pure]
  | true =>
    simp only [Bool.true_eq_false, iff_false]
    intro h
    obtain ⟨offset, -, h⟩ := Except.bind_eq_ok.1 h
    obtain ⟨body, -, h⟩ := Except.bind_eq_ok.1 h
    cases h

/-- The methods are those without a body, those whose body was found and those that failed. -/
theorem perm_locate (f : File) (methods : List (Row MethodDefColumns)) :
    ((methods.filter fun method => method.columns.Bodyless).map Row.rid ++
      (locate f methods).found.map MethodCode.rid ++
      (locate f methods).failures.map MethodFailure.rid).Perm (methods.map Row.rid) ∧
    (locate f methods).withoutBody =
      (methods.filter fun method => method.columns.Bodyless).length := by
  induction methods with
  | nil => exact ⟨.nil, rfl⟩
  | cons method methods ih =>
    obtain ⟨perm, count⟩ := ih
    rw [locate_cons]
    cases outcome : MethodCode.locate f method with
    | error e =>
      have has : ¬ method.columns.Bodyless := by simp [← locate_eq_none_iff (f := f), outcome]
      refine ⟨?_, by simpa [add, has] using count⟩
      simpa only [add, List.filter_cons, has, decide_false, Bool.false_eq_true, if_false,
        List.map_cons] using List.perm_middle.trans (perm.cons _)
    | ok found? =>
      cases found? with
      | none =>
        have none := locate_eq_none_iff.1 outcome
        exact ⟨by simpa [add, none] using perm, by simpa [add, none] using count⟩
      | some code =>
        have has : ¬ method.columns.Bodyless := by simp [← locate_eq_none_iff (f := f), outcome]
        have rid := rid_of_locate outcome
        refine ⟨?_, by simpa [add, has] using count⟩
        rw [List.append_assoc] at perm ⊢
        simpa [add, has, rid] using List.perm_middle.trans (perm.cons _)

end MethodBodies

namespace Image

variable {data : Bytes} {i : Image}

/-- The numbers of the methods without CIL code. -/
def bodylessMethods (i : Image) : List Nat :=
  (i.tables.methodDefs.rows.toList.filter fun method => method.columns.Bodyless).map Row.rid

/-- The numbers of the methods whose body was found and whose code was scanned. -/
def scannedMethods (i : Image) (config : ScanConfig) : List Nat :=
  (i.methodBodies.found.filter fun code =>
    ((LoadScope.ofImage i config).scanMethod i.data code).toOption.isSome).map MethodCode.rid

theorem found_ordered (loaded : Loaded data i) :
    (i.methodBodies.found.map MethodCode.rid).Pairwise (· < ·) := by
  obtain ⟨stream, -, read⟩ := loaded.tables
  have order := List.pairwise_lt_range' (s := 1) (n := i.tables.methodDefs.rowCount)
  rw [← Tables.methodDefs_rids read] at order
  exact order.sublist (MethodBodies.found_rids_sublist ..)

theorem perm_scan_failures (i : Image) (config : ScanConfig) :
    (i.scan config).failures.Perm (i.methodBodies.failures ++
      (ScanReport.ofMethods ((LoadScope.ofImage i config).scanMethod i.data)
        i.methodBodies.found).failures) :=
  List.mergeSort_perm ..

/-- Each method is without a body, scanned or failed, and is so once. -/
theorem perm_scan (loaded : Loaded data i) (config : ScanConfig) :
    (i.bodylessMethods ++ i.scannedMethods config ++
      (i.scan config).failures.map MethodFailure.rid).Perm
        (List.range' 1 i.tables.methodDefs.rowCount) := by
  obtain ⟨stream, -, read⟩ := loaded.tables
  have bodies := (MethodBodies.perm_locate i.file i.tables.methodDefs.rows.toList).1
  have codes := (ScanReport.perm_ofMethods ((LoadScope.ofImage i config).scanMethod i.data)
    i.methodBodies.found).1
  have failures := (perm_scan_failures i config).map MethodFailure.rid
  rw [Tables.methodDefs_rids read] at bodies
  rw [List.map_append] at failures
  calc i.bodylessMethods ++ i.scannedMethods config ++
        (i.scan config).failures.map MethodFailure.rid
    _ = i.bodylessMethods ++ (i.scannedMethods config ++
          (i.scan config).failures.map MethodFailure.rid) := List.append_assoc ..
    List.Perm _ (i.bodylessMethods ++ (i.scannedMethods config ++
          (_ ++ i.methodBodies.failures.map MethodFailure.rid))) :=
      ((failures.trans List.perm_append_comm).append_left _).append_left _
    _ = i.bodylessMethods ++ (i.scannedMethods config ++ _ ++
          i.methodBodies.failures.map MethodFailure.rid) := by rw [List.append_assoc]
    List.Perm _ (i.bodylessMethods ++ (i.methodBodies.found.map MethodCode.rid ++
          i.methodBodies.failures.map MethodFailure.rid)) :=
      (codes.append_right _).append_left _
    _ = i.bodylessMethods ++ i.methodBodies.found.map MethodCode.rid ++
          i.methodBodies.failures.map MethodFailure.rid := (List.append_assoc ..).symm
    List.Perm _ (List.range' 1 i.tables.methodDefs.rowCount) := bodies

theorem ordered_failures (loaded : Loaded data i) (config : ScanConfig) :
    (i.scan config).failures.Pairwise fun a b => a.rid < b.rid := by
  have sorted : (i.scan config).failures.Pairwise fun a b => decide (a.rid ≤ b.rid) = true :=
    List.pairwise_mergeSort (fun a b c => by simpa using Nat.le_trans)
      (fun a b => by simpa using Nat.le_total a.rid b.rid) _
  -- Sorting alone leaves ties; no two failures have one number, for no two methods have.
  have distinct := (perm_scan loaded config).nodup_iff.2 List.nodup_range'
  have distinct := List.pairwise_map.1 (List.nodup_append.1 distinct).2.1
  exact (sorted.and distinct).imp fun both =>
    Nat.lt_of_le_of_ne (of_decide_eq_true both.1) both.2

theorem withoutBody_eq (i : Image) (config : ScanConfig) :
    (i.scan config).withoutBody = i.bodylessMethods.length := by
  rw [bodylessMethods, List.length_map]
  exact (MethodBodies.perm_locate i.file i.tables.methodDefs.rows.toList).2

/-- A report accounts for every method of an image, each of them once. -/
structure Accounts (i : Image) (config : ScanConfig) (r : ScanReport) : Prop where
  once : (i.bodylessMethods ++ i.scannedMethods config ++ r.failures.map MethodFailure.rid).Perm
    (List.range' 1 i.tables.methodDefs.rowCount)
  withoutBody : r.withoutBody = i.bodylessMethods.length
  scanned : r.scanned = (i.scannedMethods config).length
  total : r.withoutBody + r.failures.length + r.scanned = i.tables.methodDefs.rowCount
  failures : r.failures.Pairwise fun a b => a.rid < b.rid
  loads : r.loads.Pairwise fun a b =>
    a.rid < b.rid ∨ a.rid = b.rid ∧ a.instructionOffset < b.instructionOffset
  apart : ∀ failure ∈ r.failures, ∀ load ∈ r.loads, load.rid ≠ failure.rid

/--
**A report accounts for every method, each of them once.** The methods without a
body, those that were scanned and those that failed are all the methods, so
their counts add up. The failures are in the order of the methods, as are the
loads, those of one method in the order of its code; a method that failed has
no load.
-/
theorem scan_accounts_for_methods (loads : Image.ofBytes data = .ok i) (config : ScanConfig) :
    i.Accounts config (i.scan config) := by
  have loaded := ofBytes_eq_ok.1 loads
  have once := perm_scan loaded config
  have withoutBody := withoutBody_eq i config
  have scanned : (i.scan config).scanned = (i.scannedMethods config).length := by
    rw [scannedMethods, List.length_map]
    exact (ScanReport.perm_ofMethods _ i.methodBodies.found).2
  have total := once.length_eq
  simp only [List.length_append, List.length_map, List.length_range'] at total
  refine ⟨once, withoutBody, scanned, by omega, ordered_failures loaded config, ?_, ?_⟩
  · exact ScanReport.ordered_loads (found_ordered loaded)
      (fun _ _ => LoadScope.rid_of_scanMethod loaded) fun _ _ => LoadScope.ordered_of_scanMethod
  · intro failure failed load there same
    obtain ⟨code, mem, loads, outcome, there⟩ := mem_scan_loads.1 there
    rw [LoadScope.rid_of_scanMethod loaded outcome load there] at same
    obtain ⟨e, fails⟩ := (failed_iff loaded mem).1 ⟨failure, failed, same.symm⟩
    rw [outcome] at fails
    cases fails

theorem scan_accounts_for_methods_small :
    ∃ i, Image.ofBytes smallImage = .ok i ∧
      ((i.scan .standard).loads.length = 1 ∧ (i.scan .standard).failures.length = 1) ∧
      i.Accounts .standard (i.scan .standard) := by
  obtain ⟨i, loads, counts⟩ := smallImage_scan
  exact ⟨i, loads, counts, scan_accounts_for_methods loads .standard⟩

end Image

end ManagedImage
