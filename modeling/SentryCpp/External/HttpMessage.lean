import SentryCpp.External.SimpleWeb
import SentryCpp.Foundation.Lines

/-!
The messages of the vendored HTTP library: what `request` writes, and the
parsers of a request, of a response and of their header fields.

A head is one line and behind it the fields, up to the first line without a
colon. `HttpHeader::parse` looks for such a line and for nothing else, so a head
that ends before one keeps it in its loop.
-/

namespace SimpleWeb

open StdString Number

/-- `emplace` of a `CaseInsensitiveMultimap`. Where the container puts a field
is its own affair. -/
structure FieldStore where
  emplace : Header → Bytes × Bytes → Header
  perm : ∀ header field, (emplace header field).Perm (field :: header)

/-- A container that keeps the fields in the order in which they came. -/
def FieldStore.inOrder : FieldStore where
  emplace := fun header field => header ++ [field]
  perm := fun header field => List.perm_append_singleton field header

namespace HttpHeader

/-- The field that a line adds whose first colon is at `paramEnd`. The last byte
of the line is taken for a carriage return. -/
def field (line : Bytes) (paramEnd : Nat) : Option (Bytes × Bytes) :=
  let valueStart := paramEnd + 1
  if valueStart < line.length then
    let valueStart := if line.getD valueStart 0 = 32 then valueStart + 1 else valueStart
    if valueStart < line.length then
      some (line.take paramEnd, (line.drop valueStart).take (line.length - valueStart - 1))
    else none
  else none

/-- The loop, from a call of `getline` on. -/
def parseFrom (store : FieldStore) : Nat → IfStream → Bytes → Header → Option (Header × IfStream)
  | 0, _, _, _ => none
  | fuel + 1, stream, line, result =>
      let (stream, line) := stream.getline line
      match line.idxOf? 58 with
      | none => some (result, stream)
      | some paramEnd =>
          parseFrom store fuel stream line
            (match field line paramEnd with
            | some f => store.emplace result f
            | none => result)

/-- `none` is a loop without an end. -/
def parse (store : FieldStore) (stream : IfStream) : Option (Header × IfStream) :=
  parseFrom store (stream.unread.length + 2) stream [] []

/-- The field of a line. -/
def fieldOf (line : Bytes) : Option (Bytes × Bytes) := (line.idxOf? 58).bind (field line)

end HttpHeader

/-- What the parser of a head comes to. -/
inductive Parsed (α : Type) where
  | message (message : α) (rest : IfStream)
  | rejected
  | endless

structure RequestMessage where
  method : Bytes
  path : Bytes
  queryString : Bytes
  httpVersion : Bytes
  header : Header
  deriving DecidableEq, Repr

namespace RequestMessage

/-- The loop over the request line behind the method: `query_start` and
`path_and_query_string_end`. -/
def scan : Nat → Bytes → Option Nat → Option Nat × Option Nat
  | _, [], queryStart => (queryStart, none)
  | i, c :: rest, queryStart =>
      if c = 63 ∧ rest ≠ [] then scan (i + 1) rest (some (i + 1))
      else if c = 32 then (queryStart, some i)
      else scan (i + 1) rest queryStart

/-- The path and the query string, which is empty where the line has none. -/
def pathAndQuery (line : Bytes) (methodEnd : Nat) (queryStart : Option Nat) (targetEnd : Nat) :
    Bytes × Bytes :=
  match queryStart with
  | some queryStart =>
      ((line.drop (methodEnd + 1)).take (queryStart - methodEnd - 2),
        (line.drop queryStart).take (targetEnd - queryStart))
  | none => ((line.drop (methodEnd + 1)).take (targetEnd - methodEnd - 1), [])

/-- `RequestMessage::parse` with an empty query string to begin with. -/
def parse (store : FieldStore) (stream : IfStream) : Parsed RequestMessage :=
  let (stream, line) := stream.getline []
  match line.idxOf? 32 with
  | none => .rejected
  | some methodEnd =>
      match scan (methodEnd + 1) (line.drop (methodEnd + 1)) none with
      | (_, none) => .rejected
      | (queryStart, some targetEnd) =>
          let (path, queryString) := pathAndQuery line methodEnd queryStart targetEnd
          match (line.drop (targetEnd + 1)).idxOf? 47 with
          | none => .rejected
          | some protocolLength =>
              if (line.drop (targetEnd + 1)).take protocolLength ≠ lit "HTTP" then .rejected
              else
                let protocolEnd := targetEnd + 1 + protocolLength
                match HttpHeader.parse store stream with
                | none => .endless
                | some (header, stream) =>
                    .message {
                      method := line.take methodEnd
                      path := path
                      queryString := queryString
                      httpVersion :=
                        (line.drop (protocolEnd + 1)).take (line.length - protocolEnd - 2)
                      header := header } stream

end RequestMessage

namespace ResponseMessage

/-- `version` and `status_code`, if the first line has them. -/
def statusLine (line : Bytes) : Option (Bytes × Bytes) :=
  match line.idxOf? 32 with
  | none => none
  | some versionEnd =>
      if line.length ≤ 5 then none
      else if line.length ≤ versionEnd + 1 then none
      else
        -- below position 5 the count wraps around and takes everything
        some (if versionEnd < 5 then line.drop 5 else (line.drop 5).take (versionEnd - 5),
          (line.drop (versionEnd + 1)).take (line.length - (versionEnd + 1) - 1))

/-- `ResponseMessage::parse`. -/
def parse (store : FieldStore) (stream : IfStream) : Parsed Response :=
  let (stream, line) := stream.getline []
  match statusLine line with
  | none => .rejected
  | some (httpVersion, statusCode) =>
      match HttpHeader.parse store stream with
      | none => .endless
      | some (header, stream) => .message ⟨httpVersion, statusCode, header⟩ stream

end ResponseMessage

namespace Client

/-- One line of a header. -/
def headerLine (h : Bytes × Bytes) : Bytes := h.1 ++ lit ": " ++ h.2 ++ lit "\r\n"

/-- `create_request_header` without a proxy server. -/
def createRequestHeader (client : Client) (method path : Bytes) (header : Header) : Bytes :=
  let correctedPath := if path = [] then lit "/" else path
  method ++ lit " " ++ correctedPath ++ lit " HTTP/1.1\r\n" ++
    headerLine (lit "Host", client.host) ++ header.flatMap headerLine

/-- The field that `request` adds for a body. -/
def contentLengthField (content : Bytes) (header : Header) : Header :=
  if content ≠ [] ∧ findField header (lit "Content-Length") = none ∧
      findField header (lit "Transfer-Encoding") ≠ some (lit "chunked") then
    [(lit "Content-Length", print 10 content.length)]
  else []

/-- The bytes that `request` hands to `connect`. -/
def requestBytes (client : Client) (method path content : Bytes) (header : Header) : Bytes :=
  client.createRequestHeader method path header ++
    (contentLengthField content header).flatMap headerLine ++ lit "\r\n" ++ content

end Client

theorem idxOf?_append_of_notMem {a : Bytes} {c : Byte} (h : c ∉ a) (b : Bytes) :
    (a ++ c :: b).idxOf? c = some a.length := by
  rw [List.idxOf?_eq_some_iff]
  refine ⟨by simp, by simp, ?_⟩
  intro j hj heq
  rw [List.getElem_append_left hj] at heq
  exact h (heq ▸ List.getElem_mem hj)

theorem exists_of_idxOf? {s : Bytes} {c : Byte} {i : Nat} (h : s.idxOf? c = some i) :
    ∃ a, s = a ++ c :: s.drop (i + 1) ∧ a.length = i := by
  obtain ⟨hlt, hget, -⟩ := List.idxOf?_eq_some_iff.mp h
  refine ⟨s.take i, ?_, List.length_take_of_le hlt.le⟩
  rw [← hget, List.getElem_cons_drop hlt, List.take_append_drop]

namespace HttpHeader

/-- The line of a field, without its newline. -/
def lineOf (f : Bytes × Bytes) : Bytes := f.1 ++ 58 :: 32 :: (f.2 ++ [13])

theorem headerLine_eq (f : Bytes × Bytes) : Client.headerLine f = lineOf f ++ [10] := by
  have hcolon : lit ": " = [58, 32] := by decide
  have hend : lit "\r\n" = [13, 10] := by decide
  simp [Client.headerLine, lineOf, hcolon, hend]

theorem flatMap_headerLine (fields : Header) :
    fields.flatMap Client.headerLine = (fields.map lineOf).flatMap fun line => line ++ [10] := by
  rw [List.flatMap_map]
  exact List.flatMap_congr fun f _ => headerLine_eq f

/-- A written field is read as the field that it is. -/
theorem fieldOf_lineOf {f : Bytes × Bytes} (hname : 58 ∉ f.1) : fieldOf (lineOf f) = some f := by
  obtain ⟨name, value⟩ := f
  rw [lineOf, fieldOf, idxOf?_append_of_notMem hname, Option.bind_some, field]
  simp only [List.length_append, List.length_cons, List.length_nil]
  rw [if_pos (by omega)]
  have hblank : (name ++ 58 :: 32 :: (value ++ [13])).getD (name.length + 1) 0 = 32 := by
    simp [List.getD_eq_getElem?_getD]
  rw [if_pos hblank, if_pos (by omega)]
  have hdrop : (name ++ 58 :: 32 :: (value ++ [13])).drop (name.length + 1 + 1) =
      value ++ [13] := by
    rw [Nat.add_assoc, List.drop_length_add_append]
    rfl
  rw [hdrop]
  congr 2
  · simp
  · rw [show name.length + (value.length + 0 + 1 + 1 + 1) - (name.length + 1 + 1) - 1 =
      value.length by omega]
    simp

theorem parseFrom_lines (store : FieldStore) {lines : List Bytes} {last : Bytes}
    (hlines : ∀ line ∈ lines, 58 ∈ line ∧ 10 ∉ line) (hlast : 58 ∉ last ∧ 10 ∉ last)
    {fuel : Nat} (hfuel : lines.length < fuel) (rest line : Bytes) (result : Header) :
    parseFrom store fuel
        (IfStream.opened (lines.flatMap (fun line => line ++ [10]) ++ (last ++ 10 :: rest)))
        line result =
      some ((lines.filterMap fieldOf).foldl store.emplace result, IfStream.opened rest) := by
  induction lines generalizing fuel line result with
  | nil =>
      obtain ⟨fuel, rfl⟩ : ∃ n, fuel = n + 1 := ⟨fuel - 1, by simp at hfuel; omega⟩
      rw [List.flatMap_nil, List.nil_append, parseFrom, IfStream.getline_opened hlast.2]
      simp [List.idxOf?_eq_none_iff.mpr hlast.1]
  | cons head lines ih =>
      obtain ⟨fuel, rfl⟩ : ∃ n, fuel = n + 1 := ⟨fuel - 1, by simp at hfuel; omega⟩
      obtain ⟨⟨hcolon, hnewline⟩, hrest⟩ := List.forall_mem_cons.mp hlines
      obtain ⟨paramEnd, hidx⟩ : ∃ paramEnd, head.idxOf? 58 = some paramEnd :=
        Option.isSome_iff_exists.mp (List.isSome_idxOf?.mpr hcolon)
      rw [List.flatMap_cons, List.append_assoc, List.append_assoc, List.singleton_append,
        parseFrom, IfStream.getline_opened hnewline]
      simp only [hidx]
      rw [ih hrest (by simpa using hfuel), List.filterMap_cons, fieldOf, hidx, Option.bind_some]
      cases field head paramEnd with
      | none => rfl
      | some f => rfl

theorem length_flatMap_lines (lines : List Bytes) :
    lines.length ≤ (lines.flatMap fun line => line ++ [10]).length := by
  induction lines with
  | nil => simp
  | cons line lines ih =>
      rw [List.flatMap_cons, List.length_append, List.length_append, List.length_cons,
        List.length_singleton]
      omega

/-- A block of lines with colons, closed by one without. -/
theorem parse_lines (store : FieldStore) {lines : List Bytes} {last : Bytes}
    (hlines : ∀ line ∈ lines, 58 ∈ line ∧ 10 ∉ line) (hlast : 58 ∉ last ∧ 10 ∉ last)
    (rest : Bytes) :
    parse store
        (IfStream.opened (lines.flatMap (fun line => line ++ [10]) ++ (last ++ 10 :: rest))) =
      some ((lines.filterMap fieldOf).foldl store.emplace [], IfStream.opened rest) := by
  have hlength := length_flatMap_lines lines
  apply parseFrom_lines store hlines hlast
  simp only [IfStream.opened, List.length_append]
  omega

theorem splitOn_eq_cons {bytes record next : Bytes} {records : List Bytes}
    (h : bytes.splitOn 10 = record :: next :: records) :
    ∃ rest, bytes = record ++ 10 :: rest ∧ 10 ∉ record ∧ rest.splitOn 10 = next :: records := by
  by_cases hnewline : 10 ∈ bytes
  · obtain ⟨a, b, rfl, ha⟩ := List.eq_append_cons_of_mem hnewline
    rw [List.splitOn_append_cons_self_of_not_mem ha, List.cons.injEq] at h
    exact ⟨b, by rw [h.1], h.1 ▸ ha, h.2⟩
  · rw [List.splitOn_eq_singleton hnewline] at h
    cases h

theorem splitOn_flatMap {lines : List Bytes} (hlines : ∀ line ∈ lines, 10 ∉ line) (rest : Bytes) :
    (lines.flatMap (fun line => line ++ [10]) ++ rest).splitOn 10 = lines ++ rest.splitOn 10 := by
  induction lines with
  | nil => rfl
  | cons line lines ih =>
      obtain ⟨hline, hmore⟩ := List.forall_mem_cons.mp hlines
      rw [List.flatMap_cons, List.append_assoc, List.append_assoc, List.singleton_append,
        List.splitOn_append_cons_self_of_not_mem hline, ih hmore, List.cons_append]

/-- A stream that has a line without a colon begins with a block of fields, and
the line that closes it is that line or one in front of it. -/
theorem exists_block {bytes line back : Bytes} {records : List Bytes}
    (h : bytes.splitOn 10 = records ++ line :: back.splitOn 10) (hline : 58 ∉ line) :
    ∃ (lines : List Bytes) (last front : Bytes), bytes =
        lines.flatMap (fun line => line ++ [10]) ++ (last ++ 10 :: (front ++ back)) ∧
      (∀ line ∈ lines, 58 ∈ line ∧ 10 ∉ line) ∧ 58 ∉ last ∧ 10 ∉ last := by
  have hjoin : ∀ b : Bytes, [10].intercalate (b.splitOn 10) = b :=
    fun b => List.intercalate_splitOn 10
  induction records generalizing bytes with
  | nil =>
      obtain ⟨next, rest, hnext⟩ := List.exists_cons_of_ne_nil (List.splitOn_ne_nil 10 back)
      rw [List.nil_append, hnext] at h
      obtain ⟨b, rfl, hfree, hb⟩ := splitOn_eq_cons h
      have hback : b = back := by rw [← hjoin b, hb, ← hnext, hjoin]
      exact ⟨[], line, [], by simp [hback], by simp, hline, hfree⟩
  | cons record records ih =>
      obtain ⟨next, rest, hnext⟩ := List.exists_cons_of_ne_nil
        (List.append_ne_nil_of_right_ne_nil records (List.cons_ne_nil line (back.splitOn 10)))
      rw [List.cons_append, hnext] at h
      obtain ⟨b, rfl, hfree, hb⟩ := splitOn_eq_cons h
      obtain ⟨lines, last, front, hblock, hlines, hlast⟩ := ih (hb.trans hnext.symm)
      by_cases hcolon : 58 ∈ record
      · refine ⟨record :: lines, last, front, ?_, ?_, hlast⟩
        · simp [hblock]
        · exact List.forall_mem_cons.mpr ⟨⟨hcolon, hfree⟩, hlines⟩
      · refine ⟨[], record, lines.flatMap (fun line => line ++ [10]) ++ (last ++ 10 :: front),
          ?_, by simp, hcolon, hfree⟩
        simp [hblock]

/-- What is written for some fields reads as these fields. -/
theorem parse_fields (store : FieldStore) {fields : Header}
    (hfields : ∀ f ∈ fields, 58 ∉ f.1 ∧ 10 ∉ f.1 ∧ 10 ∉ f.2) (rest : Bytes) :
    parse store (IfStream.opened (fields.flatMap Client.headerLine ++ lit "\r\n" ++ rest)) =
      some (fields.foldl store.emplace [], IfStream.opened rest) := by
  have hlines : ∀ line ∈ fields.map lineOf, 58 ∈ line ∧ 10 ∉ line := by
    intro line hline
    obtain ⟨f, hf, rfl⟩ := List.mem_map.mp hline
    obtain ⟨-, hname, hvalue⟩ := hfields f hf
    simp [lineOf, hname, hvalue]
  have hread : (fields.map lineOf).filterMap fieldOf = fields := by
    rw [List.filterMap_map]
    conv => rhs; rw [← List.filterMap_some (l := fields)]
    exact List.filterMap_congr fun f hf => fieldOf_lineOf (hfields f hf).1
  have hend : lit "\r\n" ++ rest = [13] ++ 10 :: rest := rfl
  rw [List.append_assoc, hend, flatMap_headerLine, parse_lines store hlines (by decide), hread]

end HttpHeader

theorem FieldStore.foldl_perm (store : FieldStore) (fields header : Header) :
    (fields.foldl store.emplace header).Perm (header ++ fields) := by
  induction fields generalizing header with
  | nil => simp
  | cons f fields ih =>
      calc (fields.foldl store.emplace (store.emplace header f)).Perm
            (store.emplace header f ++ fields) := ih _
        _ |>.Perm (f :: header ++ fields) := (store.perm header f).append_right fields
        _ |>.Perm (header ++ f :: fields) := List.perm_middle.symm

theorem findField_eq_none_iff {header : Header} {name : Bytes} :
    findField header name = none ↔
      ∀ other ∈ header.map Prod.fst, caseInsensitiveEqual other name = false := by
  simp [findField, List.find?_eq_none]

/-- A lookup among fields of which only the last one can be meant does not depend
on where the container puts them. -/
theorem findField_of_perm {header fields : Header} {f : Bytes × Bytes} {name : Bytes}
    (hperm : header.Perm (fields ++ [f])) (hfields : findField fields name = none) :
    findField header name = if caseInsensitiveEqual f.1 name then some f.2 else none := by
  have hnone := findField_eq_none_iff.mp hfields
  have hunique : ∀ g ∈ header, caseInsensitiveEqual g.1 name = true → g = f := by
    intro g hg hequal
    rcases List.mem_append.mp (hperm.mem_iff.mp hg) with hold | hlast
    · rw [hnone g.1 (List.mem_map_of_mem hold)] at hequal
      cases hequal
    · exact List.mem_singleton.mp hlast
  split
  · rename_i hname
    rw [findField, Option.map_eq_some_iff]
    cases hfind : header.find? fun g => caseInsensitiveEqual g.1 name with
    | none =>
        rw [List.find?_eq_none] at hfind
        exact absurd hname (hfind f (hperm.mem_iff.mpr (by simp)))
    | some g =>
        have hmatch := List.find?_some (p := fun g : Bytes × Bytes =>
          caseInsensitiveEqual g.1 name) hfind
        exact ⟨g, rfl, by rw [hunique g (List.mem_of_find?_eq_some hfind) hmatch]⟩
  · rename_i hname
    rw [findField_eq_none_iff]
    intro other hother
    obtain ⟨g, hg, rfl⟩ := List.mem_map.mp hother
    rw [← Bool.not_eq_true]
    intro hequal
    exact hname (hunique g hg hequal ▸ hequal)

namespace RequestMessage

theorem scan_of_notMem {b : Bytes} (hquery : 63 ∉ b) (hblank : 32 ∉ b) (rest : Bytes) (i : Nat)
    (queryStart : Option Nat) :
    scan i (b ++ 32 :: rest) queryStart = (queryStart, some (i + b.length)) := by
  induction b generalizing i with
  | nil => simp [scan]
  | cons c b ih =>
      simp only [List.mem_cons, not_or] at hquery hblank
      rw [List.cons_append, scan, if_neg (fun h => hquery.1 h.1.symm), if_neg (Ne.symm hblank.1),
        ih hquery.2 hblank.2, List.length_cons]
      congr 2
      omega

theorem scan_of_query {a : Bytes} (hblank : 32 ∉ a) {rest : Bytes} (hrest : rest ≠ []) (i : Nat)
    (queryStart : Option Nat) :
    scan i (a ++ 63 :: rest) queryStart =
      scan (i + a.length + 1) rest (some (i + a.length + 1)) := by
  induction a generalizing i queryStart with
  | nil => simp [scan, hrest]
  | cons c a ih =>
      simp only [List.mem_cons, not_or] at hblank
      have hindex : i + 1 + a.length + 1 = i + (c :: a).length + 1 := by
        rw [List.length_cons]
        omega
      rw [List.cons_append, scan]
      split
      · rw [ih hblank.2, hindex]
      · rw [if_neg (Ne.symm hblank.1), ih hblank.2, hindex]

/-- What stands in front of the last `?` of a target and behind it. -/
def splitQuery (target : Bytes) : Bytes × Bytes :=
  if 63 ∈ target then (target.take (rfind target 63), target.drop (rfind target 63 + 1))
  else (target, [])

/-- The target ends at the first blank. -/
theorem scan_target (method : Bytes) {target : Bytes} (hblank : 32 ∉ target) (v : Bytes) :
    ∃ queryStart,
      scan (method.length + 1) (target ++ 32 :: v) none =
        (queryStart, some (method.length + 1 + target.length)) ∧
      pathAndQuery (method ++ 32 :: (target ++ 32 :: v)) method.length queryStart
        (method.length + 1 + target.length) = splitQuery target := by
  have hdrop : ∀ n, (method ++ 32 :: (target ++ 32 :: v)).drop (method.length + 1 + n) =
      (target ++ 32 :: v).drop n := by
    intro n
    rw [Nat.add_assoc, List.drop_length_add_append, Nat.add_comm, List.drop_succ_cons]
  by_cases hquery : 63 ∈ target
  · obtain ⟨a, b, rfl, hb⟩ := exists_last_split hquery
    simp only [List.mem_append, List.mem_cons, not_or] at hblank
    obtain ⟨ha, -, hb'⟩ := hblank
    refine ⟨some (method.length + 1 + a.length + 1), ?_, ?_⟩
    · rw [List.append_assoc, List.cons_append, scan_of_query ha (by simp), scan_of_notMem hb hb']
      congr 2
      simp only [List.length_append, List.length_cons]
      omega
    · have hpath := hdrop 0
      have hstart := hdrop (a.length + 1)
      rw [Nat.add_zero, List.drop_zero] at hpath
      rw [← Nat.add_assoc] at hstart
      rw [pathAndQuery, splitQuery, if_pos hquery, rfind_append_of_notMem a hb, hpath, hstart]
      simp only [List.append_assoc, List.cons_append, List.length_append, List.length_cons]
      congr 1
      · rw [show method.length + 1 + a.length + 1 - method.length - 2 = a.length by omega]
        simp
      · rw [show method.length + 1 + (a.length + (b.length + 1)) -
          (method.length + 1 + a.length + 1) = b.length by omega]
        simp
  · refine ⟨none, scan_of_notMem hquery hblank v _ _, ?_⟩
    have hpath := hdrop 0
    rw [Nat.add_zero, List.drop_zero] at hpath
    rw [pathAndQuery, splitQuery, if_neg hquery, hpath,
      show method.length + 1 + target.length - method.length - 1 = target.length by omega,
      List.take_left]

/-- A head is read as what it was written from, and the reader stands behind
it. -/
theorem parse_head (store : FieldStore) {method target : Bytes}
    (hmethod : 32 ∉ method ∧ 10 ∉ method) (htarget : 32 ∉ target ∧ 10 ∉ target)
    {fields : Header} (hfields : ∀ f ∈ fields, 58 ∉ f.1 ∧ 10 ∉ f.1 ∧ 10 ∉ f.2) (rest : Bytes) :
    ∃ message,
      parse store (IfStream.opened (method ++ lit " " ++ target ++ lit " HTTP/1.1\r\n" ++
        fields.flatMap Client.headerLine ++ lit "\r\n" ++ rest)) =
        .message message (IfStream.opened rest) ∧
      message.method = method ∧ (message.path, message.queryString) = splitQuery target ∧
      message.httpVersion = lit "1.1" ∧ message.header.Perm fields := by
  have hline : method ++ lit " " ++ target ++ lit " HTTP/1.1\r\n" ++
      fields.flatMap Client.headerLine ++ lit "\r\n" ++ rest =
      (method ++ 32 :: (target ++ 32 :: lit "HTTP/1.1\r")) ++
        10 :: (fields.flatMap Client.headerLine ++ lit "\r\n" ++ rest) := by
    have hblank : lit " " = [32] := rfl
    have hversion : lit " HTTP/1.1\r\n" = 32 :: lit "HTTP/1.1\r" ++ [10] := rfl
    simp [hblank, hversion]
  have hnewline : 10 ∉ method ++ 32 :: (target ++ 32 :: lit "HTTP/1.1\r") := by
    have hversion : 10 ∉ lit "HTTP/1.1\r" := by decide
    simp [hmethod.2, htarget.2, hversion]
  obtain ⟨queryStart, hscan, hsplit⟩ := scan_target method htarget.1 (lit "HTTP/1.1\r")
  have htargetDrop : (method ++ 32 :: (target ++ 32 :: lit "HTTP/1.1\r")).drop
      (method.length + 1) = target ++ 32 :: lit "HTTP/1.1\r" := by
    rw [List.drop_length_add_append, List.drop_succ_cons, List.drop_zero]
  have hversionDrop : (method ++ 32 :: (target ++ 32 :: lit "HTTP/1.1\r")).drop
      (method.length + 1 + target.length + 1) = lit "HTTP/1.1\r" := by
    rw [Nat.add_assoc, Nat.add_assoc, Nat.add_comm 1, List.drop_length_add_append,
      List.drop_succ_cons, List.drop_length_add_append, List.drop_succ_cons, List.drop_zero]
  have hslash : (lit "HTTP/1.1\r").idxOf? 47 = some 4 := by decide
  have hprotocol : (lit "HTTP/1.1\r").take 4 = lit "HTTP" := by decide
  rw [hline]
  simp only [parse, IfStream.getline_opened hnewline, idxOf?_append_of_notMem hmethod.1,
    htargetDrop, hscan, hversionDrop, hslash, hprotocol, hsplit,
    HttpHeader.parse_fields store hfields]
  refine ⟨_, if_neg (by simp), ?_, rfl, ?_, ?_⟩
  · exact List.take_left
  · have hlength : (lit "HTTP/1.1\r").length = 9 := by decide
    have hone : (method ++ 32 :: (target ++ 32 :: lit "HTTP/1.1\r")).drop
        (method.length + 1 + target.length + 1 + 4 + 1) = lit "1.1\r" := by
      rw [Nat.add_assoc _ 4 1, ← List.drop_drop, hversionDrop]
      decide
    have hcount : method.length + (target.length + (9 + 1) + 1) -
        (method.length + 1 + target.length + 1 + 4) - 2 = 3 := by omega
    simp only [hone, List.length_append, List.length_cons, hlength, hcount]
    decide
  · simpa using store.foldl_perm fields []

theorem scan_eq_some {i targetEnd : Nat} {s : Bytes} {queryStart queryStart' : Option Nat}
    (h : scan i s queryStart = (queryStart', some targetEnd)) :
    ∃ target v, s = target ++ 32 :: v ∧ 32 ∉ target ∧ targetEnd = i + target.length := by
  induction s generalizing i queryStart with
  | nil => simp [scan] at h
  | cons c s ih =>
      rw [scan] at h
      split at h
      · rename_i hquery
        obtain ⟨target, v, rfl, hblank, rfl⟩ := ih h
        refine ⟨c :: target, v, rfl, by simp [hquery.1, hblank], ?_⟩
        rw [List.length_cons]
        omega
      · split at h
        · rename_i hblank
          simp only [Prod.mk.injEq, Option.some.injEq] at h
          exact ⟨[], s, by rw [hblank]; rfl, by simp, by simp [h.2]⟩
        · rename_i hblank
          obtain ⟨target, v, rfl, hfree, rfl⟩ := ih h
          refine ⟨c :: target, v, rfl, by simp [hfree, Ne.symm hblank], ?_⟩
          rw [List.length_cons]
          omega

theorem splitQuery_free {target : Bytes} (hblank : 32 ∉ target) :
    32 ∉ (splitQuery target).1 ∧ 32 ∉ (splitQuery target).2 := by
  rw [splitQuery]
  split
  · exact ⟨fun h => hblank (List.mem_of_mem_take h), fun h => hblank (List.mem_of_mem_drop h)⟩
  · exact ⟨hblank, by simp⟩

theorem splitQuery_blank {target : Bytes} (hfirst : 32 ∉ (splitQuery target).1)
    (hsecond : 32 ∉ (splitQuery target).2) : 32 ∉ target := by
  by_cases hquery : 63 ∈ target
  · obtain ⟨a, b, rfl, hb⟩ := exists_last_split hquery
    rw [splitQuery, if_pos hquery, rfind_append_of_notMem a hb] at hfirst hsecond
    simp only [List.take_left, List.drop_length_add_append, List.drop_succ_cons,
      List.drop_zero] at hfirst hsecond
    simp [hfirst, hsecond]
  · rwa [splitQuery, if_neg hquery] at hfirst

/-- No target that is read has a blank. -/
theorem blankFree_of_parse {store : FieldStore} {stream rest : IfStream}
    {message : RequestMessage} (h : parse store stream = .message message rest) :
    32 ∉ message.path ∧ 32 ∉ message.queryString := by
  rw [parse] at h
  simp only at h
  split at h
  · cases h
  · rename_i methodEnd hmethod
    split at h
    · cases h
    · rename_i queryStart targetEnd hscan
      obtain ⟨target, v, hdrop, hfree, rfl⟩ := scan_eq_some hscan
      obtain ⟨method, hline, hlength⟩ := exists_of_idxOf? hmethod
      rw [hdrop] at hline
      obtain ⟨queryStart', hscan', hsplit⟩ := scan_target method hfree v
      rw [hlength, ← hdrop, hscan] at hscan'
      obtain ⟨rfl, -⟩ := Prod.mk.inj hscan'
      rw [hlength, ← hline] at hsplit
      rw [hsplit] at h
      split at h
      · cases h
      · split at h
        · cases h
        · split at h
          · cases h
          · cases h
            exact splitQuery_free hfree

end RequestMessage

/-- The empty line that closes a head is among the lines behind the first. -/
theorem splitOn_of_head {a b front back : Bytes} (ha : 10 ∉ a)
    (h : a ++ 10 :: b = front ++ (lit "\r\n\r\n" ++ back)) :
    ∃ records, b.splitOn 10 = records ++ [13] :: back.splitOn 10 := by
  have hend : front ++ (lit "\r\n\r\n" ++ back) =
      (front ++ [13]) ++ 10 :: ([13] ++ 10 :: back) := by
    have hlit : lit "\r\n\r\n" = [13, 10, 13, 10] := by decide
    simp [hlit]
  have hsplit := congrArg (List.splitOn 10) (h.trans hend)
  rw [List.splitOn_append_cons_self_of_not_mem ha, List.splitOn_append_cons_self,
    List.splitOn_append_cons_self_of_not_mem (by decide)] at hsplit
  obtain ⟨x, records, hrecords⟩ :=
    List.exists_cons_of_ne_nil (List.splitOn_ne_nil 10 (front ++ [13]))
  rw [hrecords, List.cons_append, List.cons.injEq] at hsplit
  exact ⟨records, hsplit.2⟩

/-- A head that has come whole is read the same, whatever comes behind it. -/
theorem ResponseMessage.parse_append (store : FieldStore) {s front back : Bytes}
    (h : s = front ++ (lit "\r\n\r\n" ++ back)) :
    (∀ more, parse store (IfStream.opened (s ++ more)) = .rejected) ∨
    ∃ response ahead, ∀ more, parse store (IfStream.opened (s ++ more)) =
      .message response (IfStream.opened (ahead ++ (back ++ more))) := by
  have hnewline : 10 ∈ s := by
    have hmem : 10 ∈ lit "\r\n\r\n" := by decide
    simp [h, hmem]
  obtain ⟨a, b, rfl, ha⟩ := List.eq_append_cons_of_mem hnewline
  obtain ⟨records, hrecords⟩ := splitOn_of_head ha h
  obtain ⟨lines, last, ahead, rfl, hlines, hlast⟩ := HttpHeader.exists_block hrecords (by decide)
  have hgetline : ∀ more, (IfStream.opened (a ++ 10 :: (lines.flatMap (fun line => line ++ [10]) ++
      (last ++ 10 :: (ahead ++ back))) ++ more)).getline [] =
        (IfStream.opened (lines.flatMap (fun line => line ++ [10]) ++
          (last ++ 10 :: (ahead ++ (back ++ more)))), a) := by
    intro more
    have hassoc : a ++ 10 :: (lines.flatMap (fun line => line ++ [10]) ++
        (last ++ 10 :: (ahead ++ back))) ++ more =
          a ++ 10 :: (lines.flatMap (fun line => line ++ [10]) ++
            (last ++ 10 :: (ahead ++ (back ++ more)))) := by
      simp only [List.append_assoc, List.cons_append]
    rw [hassoc, IfStream.getline_opened ha]
  simp only [parse, hgetline, HttpHeader.parse_lines store hlines hlast]
  cases statusLine a with
  | none => exact Or.inl fun _ => rfl
  | some status => exact Or.inr ⟨_, _, fun _ => rfl⟩

/-- The status of an answer stands in the first line. -/
theorem ResponseMessage.statusLine_of_parse {store : FieldStore} {a b : Bytes} (ha : 10 ∉ a)
    {response : Response} {rest : IfStream}
    (h : parse store (IfStream.opened (a ++ 10 :: b)) = .message response rest) :
    statusLine a = some (response.httpVersion, response.statusCode) := by
  simp only [parse, IfStream.getline_opened ha] at h
  split at h
  · cases h
  · rename_i httpVersion statusCode hstatus
    split at h
    · cases h
    · cases h
      exact hstatus

theorem Client.requestBytes_eq (client : Client) {method path : Bytes} (hpath : path ≠ [])
    (content : Bytes) (header : Header) :
    client.requestBytes method path content header =
      method ++ lit " " ++ path ++ lit " HTTP/1.1\r\n" ++
        ((lit "Host", client.host) :: header ++ contentLengthField content header).flatMap
          headerLine ++ lit "\r\n" ++ content := by
  simp [requestBytes, createRequestHeader, hpath]

end SimpleWeb
