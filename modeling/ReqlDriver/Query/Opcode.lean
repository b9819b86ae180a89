import ReqlDriver.Protocol.Codes

namespace ReqlDriver

inductive Opcode
  | datum
  | makeArray
  | makeObj
  | var
  | javascript
  | error
  | implicitVar
  | uuid
  | http
  | db
  | table
  | get
  | getAll
  | eq
  | ne
  | lt
  | le
  | gt
  | ge
  | not
  | add
  | sub
  | mul
  | div
  | mod
  | floor
  | ceil
  | round
  | append
  | prepend
  | difference
  | setInsert
  | setIntersection
  | setUnion
  | setDifference
  | slice
  | skip
  | limit
  | offsetsOf
  | contains
  | getField
  | keys
  | values
  | object
  | hasFields
  | withFields
  | pluck
  | without
  | merge
  | literal
  | between
  | reduce
  | map
  | fold
  | filter
  | concatMap
  | orderBy
  | distinct
  | count
  | isEmpty
  | union
  | nth
  | bracket
  | innerJoin
  | outerJoin
  | eqJoin
  | zip
  | range
  | sample
  | insertAt
  | deleteAt
  | changeAt
  | spliceAt
  | coerceTo
  | typeOf
  | info
  | default
  | json
  | toJsonString
  | update
  | delete
  | replace
  | insert
  | sync
  | dbCreate
  | dbDrop
  | dbList
  | tableCreate
  | tableDrop
  | tableList
  | config
  | status
  | wait
  | reconfigure
  | rebalance
  | grant
  | indexCreate
  | indexDrop
  | indexList
  | indexStatus
  | indexWait
  | indexRename
  | funcall
  | branch
  | or
  | and
  | forEach
  | func
  | asc
  | desc
  | matchText
  | upcase
  | downcase
  | split
  | iso8601
  | toIso8601
  | epochTime
  | toEpochTime
  | now
  | inTimezone
  | during
  | date
  | timeOfDay
  | timezone
  | year
  | month
  | day
  | dayOfWeek
  | dayOfYear
  | hours
  | minutes
  | seconds
  | time
  | monday
  | tuesday
  | wednesday
  | thursday
  | friday
  | saturday
  | sunday
  | january
  | february
  | march
  | april
  | may
  | june
  | july
  | august
  | september
  | october
  | november
  | december
  | group
  | sum
  | avg
  | min
  | max
  | ungroup
  | random
  | changes
  | args
  | binary
  | minval
  | maxval
deriving DecidableEq, Repr

namespace Opcode

def code : Opcode → Nat
  | datum => 1
  | makeArray => 2
  | makeObj => 3
  | var => 10
  | javascript => 11
  | error => 12
  | implicitVar => 13
  | uuid => 169
  | http => 153
  | db => 14
  | table => 15
  | get => 16
  | getAll => 78
  | eq => 17
  | ne => 18
  | lt => 19
  | le => 20
  | gt => 21
  | ge => 22
  | not => 23
  | add => 24
  | sub => 25
  | mul => 26
  | div => 27
  | mod => 28
  | floor => 183
  | ceil => 184
  | round => 185
  | append => 29
  | prepend => 80
  | difference => 95
  | setInsert => 88
  | setIntersection => 89
  | setUnion => 90
  | setDifference => 91
  | slice => 30
  | skip => 70
  | limit => 71
  | offsetsOf => 87
  | contains => 93
  | getField => 31
  | keys => 94
  | values => 186
  | object => 143
  | hasFields => 32
  | withFields => 96
  | pluck => 33
  | without => 34
  | merge => 35
  | literal => 137
  | between => 182
  | reduce => 37
  | map => 38
  | fold => 187
  | filter => 39
  | concatMap => 40
  | orderBy => 41
  | distinct => 42
  | count => 43
  | isEmpty => 86
  | union => 44
  | nth => 45
  | bracket => 170
  | innerJoin => 48
  | outerJoin => 49
  | eqJoin => 50
  | zip => 72
  | range => 173
  | sample => 81
  | insertAt => 82
  | deleteAt => 83
  | changeAt => 84
  | spliceAt => 85
  | coerceTo => 51
  | typeOf => 52
  | info => 79
  | default => 92
  | json => 98
  | toJsonString => 172
  | update => 53
  | delete => 54
  | replace => 55
  | insert => 56
  | sync => 138
  | dbCreate => 57
  | dbDrop => 58
  | dbList => 59
  | tableCreate => 60
  | tableDrop => 61
  | tableList => 62
  | config => 174
  | status => 175
  | wait => 177
  | reconfigure => 176
  | rebalance => 179
  | grant => 188
  | indexCreate => 75
  | indexDrop => 76
  | indexList => 77
  | indexStatus => 139
  | indexWait => 140
  | indexRename => 156
  | funcall => 64
  | branch => 65
  | or => 66
  | and => 67
  | forEach => 68
  | func => 69
  | asc => 73
  | desc => 74
  | matchText => 97
  | upcase => 141
  | downcase => 142
  | split => 149
  | iso8601 => 99
  | toIso8601 => 100
  | epochTime => 101
  | toEpochTime => 102
  | now => 103
  | inTimezone => 104
  | during => 105
  | date => 106
  | timeOfDay => 126
  | timezone => 127
  | year => 128
  | month => 129
  | day => 130
  | dayOfWeek => 131
  | dayOfYear => 132
  | hours => 133
  | minutes => 134
  | seconds => 135
  | time => 136
  | monday => 107
  | tuesday => 108
  | wednesday => 109
  | thursday => 110
  | friday => 111
  | saturday => 112
  | sunday => 113
  | january => 114
  | february => 115
  | march => 116
  | april => 117
  | may => 118
  | june => 119
  | july => 120
  | august => 121
  | september => 122
  | october => 123
  | november => 124
  | december => 125
  | group => 144
  | sum => 145
  | avg => 146
  | min => 147
  | max => 148
  | ungroup => 150
  | random => 151
  | changes => 152
  | args => 154
  | binary => 155
  | minval => 180
  | maxval => 181

def name : Opcode → String
  | datum => "DATUM"
  | makeArray => "MAKE_ARRAY"
  | makeObj => "MAKE_OBJ"
  | var => "VAR"
  | javascript => "JAVASCRIPT"
  | error => "ERROR"
  | implicitVar => "IMPLICIT_VAR"
  | uuid => "UUID"
  | http => "HTTP"
  | db => "DB"
  | table => "TABLE"
  | get => "GET"
  | getAll => "GET_ALL"
  | eq => "EQ"
  | ne => "NE"
  | lt => "LT"
  | le => "LE"
  | gt => "GT"
  | ge => "GE"
  | not => "NOT"
  | add => "ADD"
  | sub => "SUB"
  | mul => "MUL"
  | div => "DIV"
  | mod => "MOD"
  | floor => "FLOOR"
  | ceil => "CEIL"
  | round => "ROUND"
  | append => "APPEND"
  | prepend => "PREPEND"
  | difference => "DIFFERENCE"
  | setInsert => "SET_INSERT"
  | setIntersection => "SET_INTERSECTION"
  | setUnion => "SET_UNION"
  | setDifference => "SET_DIFFERENCE"
  | slice => "SLICE"
  | skip => "SKIP"
  | limit => "LIMIT"
  | offsetsOf => "OFFSETS_OF"
  | contains => "CONTAINS"
  | getField => "GET_FIELD"
  | keys => "KEYS"
  | values => "VALUES"
  | object => "OBJECT"
  | hasFields => "HAS_FIELDS"
  | withFields => "WITH_FIELDS"
  | pluck => "PLUCK"
  | without => "WITHOUT"
  | merge => "MERGE"
  | literal => "LITERAL"
  | between => "BETWEEN"
  | reduce => "REDUCE"
  | map => "MAP"
  | fold => "FOLD"
  | filter => "FILTER"
  | concatMap => "CONCAT_MAP"
  | orderBy => "ORDER_BY"
  | distinct => "DISTINCT"
  | count => "COUNT"
  | isEmpty => "IS_EMPTY"
  | union => "UNION"
  | nth => "NTH"
  | bracket => "BRACKET"
  | innerJoin => "INNER_JOIN"
  | outerJoin => "OUTER_JOIN"
  | eqJoin => "EQ_JOIN"
  | zip => "ZIP"
  | range => "RANGE"
  | sample => "SAMPLE"
  | insertAt => "INSERT_AT"
  | deleteAt => "DELETE_AT"
  | changeAt => "CHANGE_AT"
  | spliceAt => "SPLICE_AT"
  | coerceTo => "COERCE_TO"
  | typeOf => "TYPE_OF"
  | info => "INFO"
  | default => "DEFAULT"
  | json => "JSON"
  | toJsonString => "TO_JSON_STRING"
  | update => "UPDATE"
  | delete => "DELETE"
  | replace => "REPLACE"
  | insert => "INSERT"
  | sync => "SYNC"
  | dbCreate => "DB_CREATE"
  | dbDrop => "DB_DROP"
  | dbList => "DB_LIST"
  | tableCreate => "TABLE_CREATE"
  | tableDrop => "TABLE_DROP"
  | tableList => "TABLE_LIST"
  | config => "CONFIG"
  | status => "STATUS"
  | wait => "WAIT"
  | reconfigure => "RECONFIGURE"
  | rebalance => "REBALANCE"
  | grant => "GRANT"
  | indexCreate => "INDEX_CREATE"
  | indexDrop => "INDEX_DROP"
  | indexList => "INDEX_LIST"
  | indexStatus => "INDEX_STATUS"
  | indexWait => "INDEX_WAIT"
  | indexRename => "INDEX_RENAME"
  | funcall => "FUNCALL"
  | branch => "BRANCH"
  | or => "OR"
  | and => "AND"
  | forEach => "FOR_EACH"
  | func => "FUNC"
  | asc => "ASC"
  | desc => "DESC"
  | matchText => "MATCH"
  | upcase => "UPCASE"
  | downcase => "DOWNCASE"
  | split => "SPLIT"
  | iso8601 => "ISO8601"
  | toIso8601 => "TO_ISO8601"
  | epochTime => "EPOCH_TIME"
  | toEpochTime => "TO_EPOCH_TIME"
  | now => "NOW"
  | inTimezone => "IN_TIMEZONE"
  | during => "DURING"
  | date => "DATE"
  | timeOfDay => "TIME_OF_DAY"
  | timezone => "TIMEZONE"
  | year => "YEAR"
  | month => "MONTH"
  | day => "DAY"
  | dayOfWeek => "DAY_OF_WEEK"
  | dayOfYear => "DAY_OF_YEAR"
  | hours => "HOURS"
  | minutes => "MINUTES"
  | seconds => "SECONDS"
  | time => "TIME"
  | monday => "MONDAY"
  | tuesday => "TUESDAY"
  | wednesday => "WEDNESDAY"
  | thursday => "THURSDAY"
  | friday => "FRIDAY"
  | saturday => "SATURDAY"
  | sunday => "SUNDAY"
  | january => "JANUARY"
  | february => "FEBRUARY"
  | march => "MARCH"
  | april => "APRIL"
  | may => "MAY"
  | june => "JUNE"
  | july => "JULY"
  | august => "AUGUST"
  | september => "SEPTEMBER"
  | october => "OCTOBER"
  | november => "NOVEMBER"
  | december => "DECEMBER"
  | group => "GROUP"
  | sum => "SUM"
  | avg => "AVG"
  | min => "MIN"
  | max => "MAX"
  | ungroup => "UNGROUP"
  | random => "RANDOM"
  | changes => "CHANGES"
  | args => "ARGS"
  | binary => "BINARY"
  | minval => "MINVAL"
  | maxval => "MAXVAL"

def all : List Opcode :=
  [datum, makeArray, makeObj, var, javascript, error, implicitVar, uuid, http, db, table, get,
   getAll, eq, ne, lt, le, gt, ge, not, add, sub, mul, div, mod, floor, ceil, round, append,
   prepend, difference, setInsert, setIntersection, setUnion, setDifference, slice, skip,
   limit, offsetsOf, contains, getField, keys, values, object, hasFields, withFields, pluck,
   without, merge, literal, between, reduce, map, fold, filter, concatMap, orderBy, distinct,
   count, isEmpty, union, nth, bracket, innerJoin, outerJoin, eqJoin, zip, range, sample,
   insertAt, deleteAt, changeAt, spliceAt, coerceTo, typeOf, info, default, json, toJsonString,
   update, delete, replace, insert, sync, dbCreate, dbDrop, dbList, tableCreate, tableDrop,
   tableList, config, status, wait, reconfigure, rebalance, grant, indexCreate, indexDrop,
   indexList, indexStatus, indexWait, indexRename, funcall, branch, or, and, forEach, func,
   asc, desc, matchText, upcase, downcase, split, iso8601, toIso8601, epochTime, toEpochTime,
   now, inTimezone, during, date, timeOfDay, timezone, year, month, day, dayOfWeek, dayOfYear,
   hours, minutes, seconds, time, monday, tuesday, wednesday, thursday, friday, saturday,
   sunday, january, february, march, april, may, june, july, august, september, october,
   november, december, group, sum, avg, min, max, ungroup, random, changes, args, binary,
   minval, maxval]

def ofCode? (n : Nat) : Option Opcode := all.find? fun op => op.code == n

def label (op : Opcode) : String := Label.ofName op.name

def ofLabel? (label : String) : Option Opcode := all.find? fun op => op.label == label

theorem ctorIdx_lt (op : Opcode) : op.ctorIdx < 164 := by
  cases op <;> decide

theorem ofCode?_code_ofNat : ∀ n < 164, ofCode? (ofNat n).code = some (ofNat n) := by
  decide +kernel

theorem ofCode?_code (op : Opcode) : ofCode? op.code = some op := by
  rw [← ofNat_ctorIdx op]
  exact ofCode?_code_ofNat _ (ctorIdx_lt op)

end Opcode

end ReqlDriver
