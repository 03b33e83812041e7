import FaceRecognition.RateLimit.InProcess
import FaceRecognition.RateLimit.Redis
import FaceRecognition.RateLimit.Agreement
import FaceRecognition.Db.Concurrent
import FaceRecognition.Services.RedisJobInterleaving
import FaceRecognition.Services.Ranking
import FaceRecognition.Services.ImportTruth
import FaceRecognition.Services.ImportIsolation
import FaceRecognition.Api.Inactive
import FaceRecognition.Recognition.Anchors
import FaceRecognition.Services.RedisJobLifetime
import FaceRecognition.Services.ImportBatches
import FaceRecognition.Services.ImportProgress
import FaceRecognition.Services.FindOrCreate
import FaceRecognition.Recognition.Nms
import FaceRecognition.Recognition.Letterbox
import FaceRecognition.Api.ApiKeys
import FaceRecognition.Services.Audit
import FaceRecognition.Api.Audit
import FaceRecognition.Api.Trail
import FaceRecognition.Api.Admission
import FaceRecognition.Db.Listing
import FaceRecognition.Api.Stats
import FaceRecognition.Db.IndexScan
import FaceRecognition.Recognition.EntryPoints
import FaceRecognition.Services.Verdicts
import FaceRecognition.Db.Constraints
import FaceRecognition.Api.SingleFaces
import FaceRecognition.Api.Names
import FaceRecognition.Api.ExternalIds
import FaceRecognition.Api.Patch
import FaceRecognition.Api.External
import FaceRecognition.Services.ImportersAgree
import FaceRecognition.Core.Imaging
import FaceRecognition.Recognition.Similarity
import FaceRecognition.Core.RedisClient
import FaceRecognition.Recognition.Layouts
import FaceRecognition.Api.Ledger
import FaceRecognition.Api.Rights
import FaceRecognition.Services.AccountRaces
import FaceRecognition.Db.Migrations
import FaceRecognition.Api.PersonRaces
